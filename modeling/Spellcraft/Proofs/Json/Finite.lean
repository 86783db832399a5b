import Spellcraft.Proofs.Json.Number
import Spellcraft.Proofs.Json.Scale
import Spellcraft.Proofs.Number.Value

set_option autoImplicit false

namespace Spellcraft.Json

open Number

inductive IsFinite : Json → Prop where
  | null : IsFinite .null
  | bool (value : Bool) : IsFinite (.bool value)
  | number {value : Option Numeral}
      (finite : ∀ numeral ∈ value, numeral.toFloat.isFinite = true) : IsFinite (.number value)
  | text (value : Option String) : IsFinite (.text value)
  | list {items : List Json} (all : ∀ item ∈ items, IsFinite item) : IsFinite (.list items)
  | record {fields : List (Option String × Json)} (all : ∀ field ∈ fields, IsFinite field.2) :
      IsFinite (.record fields)

section Numbers

variable {x y : Float} {exponent : Int} {numeral : Numeral}

theorem isFinite_of_bounded (number : x.isNaN = false) (bounded : x.isInf = false) :
    x.isFinite = true := by
  change (parts x).isNaN = false at number
  change (parts x).isInf = false at bounded
  change (parts x).isFinite = true
  generalize parts x = value at number bounded
  cases value with
  | notANumber => cases number
  | infinity => cases bounded
  | zero | finite => rfl

theorem scale?_isFinite {steps : Nat} (finite : x.isFinite = true)
    (scaled : scale? steps x exponent = some y) : y.isFinite = true := by
  induction steps generalizing x exponent with
  | zero =>
    cases scaled
    exact finite
  | succ steps ih =>
    rw [scale?] at scaled
    by_cases few : exponent.natAbs ≤ 308
    · rw [if_pos few] at scaled
      by_cases below : exponent < 0
      · rw [if_pos below] at scaled
        cases scaled
        exact isFinite_div_powerOfTen few finite
      · rw [if_neg below] at scaled
        obtain ⟨bounded, same⟩ := Option.ite_none_left_eq_some.1 scaled
        cases same
        have number := (approximates_mul finite (powerOfTen_isFinite few)).number
        exact isFinite_of_bounded number (Bool.eq_false_iff.2 bounded)
    · rw [if_neg few] at scaled
      split at scaled
      next =>
        cases scaled
        exact finite
      next =>
        have later := (Option.ite_none_left_eq_some.1 scaled).2
        exact ih (isFinite_div_powerOfTen le_rfl finite) later

theorem toFloat_isFinite (value : UInt64) : value.toFloat.isFinite = true := by
  have same : ofNatural value.toNat = value.toFloat := by simp [ofNatural]
  rw [← same]
  exact ofNatural_finite _

theorem real?_isFinite {text : NumberText} (read : text.real? = some numeral) :
    numeral.toFloat.isFinite = true := by
  obtain ⟨size, scaled, rfl⟩ := Option.map_eq_some_iff.1 read
  have finite := scale?_isFinite (ofNatural_finite _) scaled
  change (if text.isNegative then -size else size).isFinite = true
  split
  · exact neg_finite finite
  · exact finite

theorem value?_isFinite {text : NumberText} (read : text.value? = some numeral) :
    numeral.toFloat.isFinite = true := by
  simp only [NumberText.value?] at read
  by_cases plain : (text.fraction.isEmpty && text.exponent.isNone &&
      (takeDigits 0 text.whole).2.isEmpty) = true
  · rw [if_pos plain] at read
    split at read
    next =>
      cases read
      exact toFloat_isFinite _
    next =>
      split at read
      next =>
        cases read
        exact neg_finite (ofNatural_finite _)
      next =>
        cases read
        exact ofInteger_finite _
  · rw [if_neg plain] at read
    exact real?_isFinite read

theorem readNumber_isFinite {input left : List Char} {value : Option Numeral}
    (read : readNumber input = some (value, left)) :
    ∀ numeral ∈ value, numeral.toFloat.isFinite = true := by
  have unsigned {negative : Bool} {body : List Char}
      (read : readUnsigned negative body = some (value, left)) :
      ∀ numeral ∈ value, numeral.toFloat.isFinite = true := by
    obtain ⟨fraction, rest, exponent, -, -, -, rfl⟩ := readUnsigned_eq_some.1 read
    exact fun numeral given => value?_isFinite given
  by_cases minus : '-' ∈ input.head?
  · obtain ⟨body, rfl⟩ : ∃ body, input = '-' :: body := List.head?_eq_some_iff.1 minus
    exact unsigned read
  · rw [readNumber_plain minus] at read
    exact unsigned read

end Numbers

-- One step of the bound for each of the three readers.
theorem read_isFinite (bound : Nat) :
    (∀ input json left, readValue bound input = some (json, left) → json.IsFinite) ∧
    (∀ input items left, readItems bound input = some (items, left) →
      ∀ item ∈ items, item.IsFinite) ∧
    ∀ input fields left, readFields bound input = some (fields, left) →
      ∀ field ∈ fields, field.2.IsFinite := by
  induction bound with
  | zero => simp [readValue, readItems, readFields]
  | succ bound ih =>
    obtain ⟨value, items, fields⟩ := ih
    refine ⟨fun input json left read => ?_, fun input told left read => ?_,
      fun input told left read => ?_⟩
    · rw [readValue] at read
      split at read
      · cases read
        exact .null
      · cases read
        exact .bool _
      · cases read
        exact .bool _
      · obtain ⟨_, -, same⟩ := Option.map_eq_some_iff.1 read
        cases same
        exact .text _
      · split at read
        · cases read
          exact .list (List.forall_mem_nil _)
        · obtain ⟨_, inside, same⟩ := Option.map_eq_some_iff.1 read
          cases same
          exact .list (items _ _ _ inside)
      · split at read
        · cases read
          exact .record (List.forall_mem_nil _)
        · obtain ⟨_, inside, same⟩ := Option.map_eq_some_iff.1 read
          cases same
          exact .record (fields _ _ _ inside)
      · obtain ⟨_, number, same⟩ := Option.map_eq_some_iff.1 read
        cases same
        exact .number (readNumber_isFinite number)
    · rw [readItems] at read
      split at read
      · cases read
      · next found =>
        have first := value _ _ _ found
        split at read
        · obtain ⟨_, later, same⟩ := Option.map_eq_some_iff.1 read
          cases same
          exact List.forall_mem_cons.2 ⟨first, items _ _ _ later⟩
        · cases read
          exact List.forall_mem_singleton.2 first
        · cases read
    · rw [readFields] at read
      split at read
      · split at read
        · cases read
        · split at read
          · split at read
            · cases read
            · next found =>
              have first := value _ _ _ found
              split at read
              · obtain ⟨_, later, same⟩ := Option.map_eq_some_iff.1 read
                cases same
                exact List.forall_mem_cons.2 ⟨first, fields _ _ _ later⟩
              · cases read
                exact List.forall_mem_singleton.2 first
              · cases read
          · cases read
      · cases read

theorem parse?_isFinite {input : List Char} {json : Json} (read : parse? input = some json) :
    json.IsFinite := by
  obtain ⟨left, found, -⟩ := parse?_eq_some.1 read
  exact (read_isFinite _).1 _ _ _ found

end Spellcraft.Json
