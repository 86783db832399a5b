import Mathlib.Data.List.Nodup
import Spellcraft.Spell.Spell

set_option autoImplicit false

namespace Spellcraft

theorem Focus.ofName?_eq_some {text : String} {focus : Focus} :
    Focus.ofName? text = some focus ↔ text = focus.name := by
  constructor
  · intro found
    have named := List.find?_some found
    exact (by simpa using named : focus.name = text).symm
  · rintro rfl
    cases focus <;> decide

theorem AnchorKind.ofName?_eq_some {text : String} {kind : AnchorKind} :
    AnchorKind.ofName? text = some kind ↔ text = kind.name := by
  constructor
  · intro found
    have named := List.find?_some found
    exact (by simpa using named : kind.name = text).symm
  · rintro rfl
    cases kind <;> decide

theorem Direction.ofSign?_eq_some {sign : Char} {direction : Direction} :
    Direction.ofSign? sign = some direction ↔ sign = direction.sign := by
  constructor
  · intro found
    unfold Direction.ofSign? at found
    split at found <;> cases found <;> rfl
  · rintro rfl
    cases direction <;> rfl

theorem Shift.natAbs_signed (shift : Shift) : shift.signed.natAbs = shift.amount.toNat := by
  rw [signed]
  split <;> simp

section Lookup

variable {Key Value : Type} [DecidableEq Key] {key : Key} {value : Value}
  {entries : List (Key × Value)}

theorem lookup_cons (entry : Key × Value) (rest : List (Key × Value)) :
    (entry :: rest).lookup key = if key = entry.1 then some entry.2 else rest.lookup key := by
  rw [List.lookup_cons]
  by_cases same : key = entry.1
  · simp [same]
  · simp [same, beq_false_of_ne same]

theorem lookup_eq_some_iff_mem (distinct : (entries.map Prod.fst).Nodup) :
    entries.lookup key = some value ↔ (key, value) ∈ entries := by
  induction entries with
  | nil => simp
  | cons entry rest ih =>
    obtain ⟨fresh, others⟩ := List.nodup_cons.1 distinct
    rw [lookup_cons, List.mem_cons]
    by_cases same : key = entry.1
    · subst same
      have later : (entry.1, value) ∉ rest := fun member => fresh (List.mem_map.2 ⟨_, member, rfl⟩)
      simp [later, Prod.ext_iff, eq_comm]
    · simp [same, ih others, Prod.ext_iff]

end Lookup

namespace Parameters

variable {key other : String} {value : ParameterValue} {entries : List Parameter}

-- Keys ascend, so an entry that goes before another one stands before all that could share its key.
theorem lookup_place (ascending : entries.Pairwise fun left right => left.1 < right.1) :
    (place key value entries).lookup other =
      if other = key then some value else entries.lookup other := by
  induction entries with
  | nil => rw [place, lookup_cons]
  | cons entry rest ih =>
    obtain ⟨below, others⟩ := List.pairwise_cons.1 ascending
    simp only [place]
    split
    · rw [lookup_cons]
    · next not_above =>
      split
      · next above =>
        rw [lookup_cons, lookup_cons, ih others]
        by_cases same : other = entry.1
        · have apart : entry.1 ≠ key := String.ne_of_lt above
          simp [same, apart]
        · simp [same]
      · next not_below =>
        have same : key = entry.1 :=
          String.le_antisymm (String.not_lt.1 not_below) (String.not_lt.1 not_above)
        rw [lookup_cons, lookup_cons, same]
        by_cases found : other = entry.1
        · simp [found]
        · simp [found]

@[simp] theorem find?_insert (parameters : Parameters) :
    (parameters.insert key value).find? other =
      if other = key then some value else parameters.find? other :=
  lookup_place parameters.ascending

theorem find?_foldl (parameters : Parameters) :
    (entries.foldl (fun parameters entry => parameters.insert entry.1 entry.2)
      parameters).find? key = (entries.reverse.lookup key).or (parameters.find? key) := by
  induction entries generalizing parameters with
  | nil => simp
  | cons entry rest ih =>
    rw [List.foldl_cons, ih, List.reverse_cons, List.lookup_append, find?_insert, lookup_cons,
      Option.or_assoc]
    by_cases same : key = entry.1
    · simp [same]
    · simp [same]

-- Of several entries under one key the last one counts.
theorem find?_ofList (entries : List Parameter) (key : String) :
    (ofList entries).find? key = entries.reverse.lookup key := by
  rw [ofList, find?_foldl]
  simp [empty, find?]

theorem keys_nodup (parameters : Parameters) : (parameters.entries.map Prod.fst).Nodup := by
  rw [List.nodup_iff_pairwise_ne, List.pairwise_map]
  exact parameters.ascending.imp fun below => String.ne_of_lt below

theorem find?_eq_some {parameters : Parameters} :
    parameters.find? key = some value ↔ (key, value) ∈ parameters.entries :=
  lookup_eq_some_iff_mem parameters.keys_nodup

-- Two lists with the same entries, both in ascending order of the keys, are the same list.
theorem ext_find {left right : Parameters}
    (agree : ∀ key value, left.find? key = some value ↔ right.find? key = some value) :
    left = right := by
  have members (entry : Parameter) : entry ∈ left.entries ↔ entry ∈ right.entries := by
    rw [← find?_eq_some, agree, find?_eq_some]
  have perm : left.entries.Perm right.entries :=
    (List.perm_ext_iff_of_nodup left.keys_nodup.of_map right.keys_nodup.of_map).2 members
  have same : left.entries = right.entries :=
    perm.eq_of_pairwise (fun _ _ _ _ below above => absurd above (String.lt_asymm below))
      left.ascending right.ascending
  cases left
  cases right
  cases same
  rfl

@[simp] theorem ofList_entries (parameters : Parameters) :
    ofList parameters.entries = parameters := by
  refine ext_find fun key value => ?_
  have distinct : (parameters.entries.reverse.map Prod.fst).Nodup := by
    rw [List.map_reverse, List.nodup_reverse]
    exact parameters.keys_nodup
  rw [find?_ofList, lookup_eq_some_iff_mem distinct, List.mem_reverse, find?_eq_some]

end Parameters

end Spellcraft
