import Spellcraft.Proofs.Engine.Finite
import Spellcraft.Proofs.Json.Finite

set_option autoImplicit false

namespace Spellcraft

namespace Json

variable {α β : Type} {json : Json} {names : List String} {slots : List Slot} {slot : Slot}

theorem mapM_mem {read : β → Option α} {items : List β} {values : List α}
    (done : items.mapM read = some values) :
    ∀ value ∈ values, ∃ item ∈ items, read item = some value := by
  induction items generalizing values with
  | nil =>
    cases done
    nofun
  | cons item rest ih =>
    simp only [List.mapM_cons, Option.bind_eq_bind, Option.bind_eq_some_iff] at done
    obtain ⟨first, given, others, later, same⟩ := done
    cases same
    intro value member
    rcases List.mem_cons.1 member with rfl | member
    · exact ⟨item, List.mem_cons_self, given⟩
    · obtain ⟨other, within, given⟩ := ih later value member
      exact ⟨other, List.mem_cons_of_mem _ within, given⟩

theorem field?_mem {name : String} {fields : List (Option String × Json)}
    (found : field? name fields = some json) : (some name, json) ∈ fields := by
  induction fields with
  | nil => cases found
  | cons field rest ih =>
    rw [field?] at found
    split at found
    next same =>
      cases found
      exact List.mem_cons.2 (.inl (Prod.ext same.symm rfl))
    next => exact List.mem_cons_of_mem _ (ih found)

def Slot.IsFinite (slot : Slot) : Prop :=
  ∀ json, slot = .given json → json.IsFinite

theorem slots?_isFinite (finite : json.IsFinite) (taken : json.slots? names = some slots) :
    ∀ slot ∈ slots, slot.IsFinite := by
  cases finite with
  | null | bool | number | text => cases taken
  | list all =>
    obtain ⟨-, same⟩ := Option.ite_none_left_eq_some.1 taken
    cases same
    intro slot member json given
    subst given
    rcases List.mem_append.1 member with shown | cut
    · obtain ⟨_, within, same⟩ := List.mem_map.1 shown
      cases same
      exact all json within
    · cases List.eq_of_mem_replicate cut
  | record all =>
    obtain ⟨-, taken⟩ := Option.ite_none_left_eq_some.1 taken
    obtain ⟨-, same⟩ := Option.ite_none_left_eq_some.1 taken
    cases same
    intro slot member json given
    obtain ⟨name, -, rfl⟩ := List.mem_map.1 member
    rw [slotOf] at given
    split at given
    next found =>
      cases given
      exact all _ (field?_mem found)
    next => cases given

theorem Slot.required_eq_some {read : Json → Option α} {value : α} :
    slot.required read = some value ↔ ∃ json, slot = .given json ∧ read json = some value := by
  cases slot <;> simp [required]

theorem required_real {x : Float} (finite : slot.IsFinite)
    (read : slot.required real? = some x) : x.isFinite = true := by
  obtain ⟨json, given, read⟩ := Slot.required_eq_some.1 read
  cases finite json given with
  | number all =>
    obtain ⟨numeral, present, rfl⟩ := Option.map_eq_some_iff.1 read
    exact all numeral present
  | _ => cases read

end Json

open Json

variable {json : Json}

theorem ParameterValue.ofJson?_isFinite {value : ParameterValue} (finite : json.IsFinite)
    (read : ofJson? json = some value) : ∀ x ∈ value.number?, x.isFinite = true := by
  cases finite with
  | number all =>
    obtain ⟨numeral, present, rfl⟩ := Option.map_eq_some_iff.1 read
    intro x number
    cases number
    exact all numeral present
  | text =>
    obtain ⟨text, -, rfl⟩ := Option.map_eq_some_iff.1 read
    nofun
  | _ => cases read

theorem Parameters.ofJson?_isFinite {parameters : Parameters} (finite : json.IsFinite)
    (read : ofJson? json = some parameters) :
    ∀ entry ∈ parameters.entries, ∀ x ∈ entry.2.number?, x.isFinite = true := by
  cases finite with
  | record all =>
    obtain ⟨entries, pairs, rfl⟩ := Option.map_eq_some_iff.1 read
    rintro ⟨key, value⟩ listed
    rw [← find?_eq_some, find?_ofList, List.lookup_eq_some_iff] at listed
    obtain ⟨before, after, parts, -⟩ := listed
    have member : (key, value) ∈ entries := by
      rw [← List.mem_reverse, parts]
      simp
    obtain ⟨field, within, taken⟩ := mapM_mem pairs _ member
    rw [Parameter.ofField?] at taken
    split at taken
    next found =>
      cases taken
      exact ParameterValue.ofJson?_isFinite (all field within) found
    next => cases taken
  | _ => cases read

theorem Effect.ofJson?_isFinite {effect : Effect} (finite : json.IsFinite)
    (read : ofJson? json = some effect) : effect.IsFinite := by
  obtain ⟨slots, taken, read⟩ := Option.bind_eq_some_iff.1 read
  have given := slots?_isFinite finite taken
  split at read
  next =>
    simp only [List.forall_mem_cons, Option.bind_eq_bind, Option.bind_eq_some_iff, Option.pure_def,
      Option.some.injEq] at given read
    obtain ⟨-, -, -, parameters, -, -, -, intensity, -⟩ := given
    obtain ⟨_, -, _, -, _, -, held, held_read, _, -, _, -, _, -, value, value_read, rfl⟩ := read
    obtain ⟨inner, shown, inner_read⟩ := Slot.required_eq_some.1 held_read
    exact Effect.isFinite_iff.2 ⟨required_real intensity value_read,
      Parameters.ofJson?_isFinite (parameters inner shown) inner_read⟩
  next => cases read

theorem Reality.ofJson?_isFinite {reality : Reality} (finite : json.IsFinite)
    (read : ofJson? json = some reality) : reality.IsFinite := by
  obtain ⟨slots, taken, read⟩ := Option.bind_eq_some_iff.1 read
  have given := slots?_isFinite finite taken
  split at read
  next =>
    simp only [List.forall_mem_cons, Option.bind_eq_bind, Option.bind_eq_some_iff, Option.pure_def,
      Option.some.injEq] at given read
    obtain ⟨energy, probability, entropy, time, effects, -⟩ := given
    obtain ⟨_, energy_read, _, probability_read, _, entropy_read, _, time_read, _, effects_read, _,
      -, _, -, rfl⟩ := read
    refine Reality.isFinite_iff.2 ⟨fun focus => ?_, fun effect member => ?_⟩
    · cases focus with
      | energy => exact required_real energy energy_read
      | probability => exact required_real probability probability_read
      | entropy => exact required_real entropy entropy_read
      | time => exact required_real time time_read
    · obtain ⟨inner, shown, listed⟩ := Slot.required_eq_some.1 effects_read
      cases effects inner shown with
      | list all =>
        obtain ⟨item, within, item_read⟩ := mapM_mem listed effect member
        exact Effect.ofJson?_isFinite (all item within) item_read
      | _ => cases listed
  next => cases read

theorem Session.ofText?_isFinite {text : String} {session : Session}
    (read : ofText? text = some session) : session.reality.IsFinite := by
  obtain ⟨json, parsed, read⟩ := Option.bind_eq_some_iff.1 read
  obtain ⟨slots, taken, read⟩ := Option.bind_eq_some_iff.1 read
  have given := slots?_isFinite (parse?_isFinite parsed) taken
  split at read
  next =>
    simp only [List.forall_mem_cons, Option.bind_eq_bind, Option.bind_eq_some_iff, Option.pure_def,
      Option.some.injEq] at given read
    obtain ⟨_, state_read, _, -, _, -, rfl⟩ := read
    obtain ⟨inner, shown, inner_read⟩ := Slot.required_eq_some.1 state_read
    exact Reality.ofJson?_isFinite (given.1 inner shown) inner_read
  next => cases read

theorem Snapshot.restore_isFinite {snapshot : Snapshot} {session : Session}
    (restored : snapshot.restore = .ok session) : session.reality.IsFinite := by
  simp only [restore] at restored
  split at restored
  next => cases restored
  next =>
    split at restored
    next => cases restored
    next =>
      split at restored
      next read =>
        cases restored
        exact Session.ofText?_isFinite read
      next => cases restored

end Spellcraft
