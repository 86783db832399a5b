import Spellcraft.Proofs.Number.Natural

set_option autoImplicit false

namespace Spellcraft.Number

def isMark (c : Char) : Bool :=
  c.isDigit || c == '-' || c == '+' || c == '.' || c == 'e'

theorem isMark_of_isDigit {c : Char} (digit : c.isDigit = true) : isMark c = true := by
  simp [isMark, digit]

theorem isMark_eq_false {c : Char} :
    isMark c = false ↔ c.isDigit = false ∧ c ≠ '-' ∧ c ≠ '+' ∧ c ≠ '.' ∧ c ≠ 'e' := by
  simp [isMark, and_assoc]

theorem naturalText_marks {n : Nat} : ∀ c ∈ naturalText n, isMark c = true :=
  fun c member => isMark_of_isDigit (naturalText_digits c member)

theorem zeros_marks {count : Nat} : ∀ c ∈ zeros count, isMark c = true := by
  intro c member
  rw [List.eq_of_mem_replicate member]
  decide

theorem signedText_marks {n : Int} : ∀ c ∈ signedText n, isMark c = true := by
  have minus : isMark '-' = true := by decide
  have plus : isMark '+' = true := by decide
  have digits := @naturalText_marks n.natAbs
  simp only [signedText, integerText]
  split <;> simpa [minus, plus] using digits

theorem positional_marks {d : Decimal} : ∀ c ∈ positional d, isMark c = true := by
  have point : isMark '.' = true := by decide
  simp only [positional]
  split
  · exact List.forall_mem_append.2 ⟨naturalText_marks, zeros_marks⟩
  · have padded (count : Nat) : ∀ c ∈ zeros count ++ naturalText d.digits, isMark c = true :=
      List.forall_mem_append.2 ⟨zeros_marks, naturalText_marks⟩
    refine List.forall_mem_append.2 ⟨fun c member => ?_, List.forall_mem_cons.2 ⟨point, ?_⟩⟩
    · exact padded _ c (List.mem_of_mem_take member)
    · exact fun c member => padded _ c (List.mem_of_mem_drop member)

theorem scientific_marks {d : Decimal} : ∀ c ∈ scientific d, isMark c = true := by
  have point : isMark '.' = true := by decide
  have exponent : isMark 'e' = true := by decide
  have digits := @naturalText_marks d.digits
  simp only [scientific]
  split
  · simp
  · next first one =>
    rw [one] at digits
    simpa [exponent] using ⟨digits first (by simp), @signedText_marks _⟩
  · next first others _ many =>
    rw [many] at digits
    obtain ⟨leading, digits⟩ := List.forall_mem_cons.1 digits
    refine List.forall_mem_cons.2 ⟨leading, List.forall_mem_cons.2 ⟨point, ?_⟩⟩
    exact List.forall_mem_append.2 ⟨digits, List.forall_mem_cons.2 ⟨exponent, @signedText_marks _⟩⟩

theorem wireDecimal_marks {d : Decimal} : ∀ c ∈ wireDecimal d, isMark c = true := by
  have whole : ['.', '0'].all isMark = true := by decide
  simp only [wireDecimal]
  split
  · split
    · exact List.forall_mem_append.2 ⟨positional_marks, List.all_eq_true.1 whole⟩
    · exact positional_marks
  · exact scientific_marks

theorem wire?_marks {x : Float} {text : List Char} (written : wire? x = some text) :
    ∀ c ∈ text, isMark c = true := by
  have signed {size : List Char} (marks : ∀ c ∈ size, isMark c = true) :
      ∀ c ∈ withSign x size, isMark c = true := by
    rw [withSign]
    split
    · exact List.forall_mem_cons.2 ⟨by decide, marks⟩
    · exact marks
  rw [wire?] at written
  split at written <;> cases written
  · have zero : ['0', '.', '0'].all isMark = true := by decide
    exact signed (List.all_eq_true.1 zero)
  · exact signed wireDecimal_marks

theorem wire?_isSome {x : Float} (finite : isFinite x = true) : (wire? x).isSome = true := by
  rw [isFinite] at finite
  rw [wire?]
  split at finite <;> simp_all

end Spellcraft.Number
