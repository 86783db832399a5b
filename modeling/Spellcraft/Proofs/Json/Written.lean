import Spellcraft.Proofs.Json.Number
import Spellcraft.Proofs.Json.Scale

set_option autoImplicit false

namespace Spellcraft

open Number

-- The decimal that a text spells out. Where nothing would stand behind the point, a zero does.
def Number.Decimal.spelled (d : Decimal) : Decimal :=
  if 0 ≤ d.exponent ∧ d.exponent + (digitCount d.digits - 1 : Nat) < 16 then
    ⟨d.digits * 10 ^ (d.exponent.toNat + 1), -1⟩
  else d

namespace Json

def scaled? (negative : Bool) (d : Decimal) : Option Numeral :=
  (scale? 4 (ofNatural d.digits) d.exponent).map fun size =>
    .real (if negative then -size else size)

variable {negative : Bool} {whole fraction tail : List Char} {exponent : Option Int}

-- All digits fit into the significand, so none is left over.
theorem real?_eq (fits : Nat.ofDigitChars 10 (whole ++ fraction) 0 < UInt64.size) :
    (NumberText.mk negative whole fraction exponent).real? =
      scaled? negative
        ⟨Nat.ofDigitChars 10 (whole ++ fraction) 0, exponent.getD 0 - fraction.length⟩ := by
  rw [Nat.ofDigitChars_append] at fits ⊢
  have first := takeDigits_eq (lt_of_le_of_lt (le_ofDigitChars fraction _) fits)
  simp only [NumberText.real?, first, takeDigits_eq fits, scaled?, List.length_nil, Nat.sub_zero,
    Nat.cast_zero, zero_sub, neg_add_eq_sub]

def pointed (fraction : List Char) : List Char :=
  if fraction.isEmpty then [] else '.' :: fraction

theorem readUnsigned_spelled {n : Nat} (leading : isWholePart whole = true)
    (digits : ∀ c ∈ whole, c.isDigit = true) (digits' : ∀ c ∈ fraction, c.isDigit = true)
    (read : readExponent tail = some (exponent, []))
    (apart : ∀ c ∈ tail.head?, c.isDigit = false ∧ c ≠ '.')
    (told : fraction ≠ [] ∨ exponent ≠ none)
    (worth : Nat.ofDigitChars 10 (whole ++ fraction) 0 = n) (fits : n < UInt64.size) :
    readUnsigned negative (whole ++ (pointed fraction ++ tail)) =
      some (scaled? negative ⟨n, exponent.getD 0 - fraction.length⟩, []) := by
  have stops : ∀ c ∈ (pointed fraction ++ tail).head?, c.isDigit = false := by
    rw [pointed]
    split
    · exact fun c first => (apart c first).1
    · rintro c ⟨⟩
      decide
  obtain ⟨taken, dropped⟩ := Text.run_eq_iff.2 ⟨rfl, digits, stops⟩
  have behind : readFraction (pointed fraction ++ tail) = some (fraction, tail) := by
    rw [pointed]
    split
    next none =>
      obtain rfl : fraction = [] := by simpa using none
      exact readFraction_plain fun first => (apart '.' first).2 rfl
    next some =>
      obtain ⟨taken, dropped⟩ := Text.run_eq_iff.2
        ⟨rfl, digits', fun c first => (apart c first).1⟩
      rw [List.cons_append, readFraction, taken, dropped, if_neg some]
  refine readUnsigned_eq_some.2 ⟨fraction, tail, exponent, ?_, ?_, read, ?_⟩
  · rwa [taken]
  · rwa [dropped]
  · rw [taken, value?_eq_real? told, real?_eq (by rwa [worth]), worth]

theorem natural?_naturalText (n : Nat) : natural? (naturalText n) = some n := by
  have digits : (naturalText n).all Char.isDigit = true := List.all_eq_true.2 naturalText_digits
  have worth : digitsValue (naturalText n) = n :=
    Nat.ofDigitChars_eq_foldl.symm.trans Nat.ofDigitChars_ten_toDigits
  simp [natural?, naturalText_ne_nil, digits, worth]

theorem readExponent_signedText (n : Int) :
    readExponent ('e' :: signedText n) = some (some n, []) := by
  have all (m : Nat) : (naturalText m).takeWhile Char.isDigit = naturalText m ∧
      (naturalText m).dropWhile Char.isDigit = [] :=
    ⟨List.takeWhile_eq_self_iff.2 naturalText_digits,
      List.dropWhile_eq_nil_iff.2 naturalText_digits⟩
  rw [signedText, integerText]
  split
  next below =>
    have same : -(n.natAbs : Int) = n := by omega
    simp only [readExponent, true_or, if_true, splitSign, all, natural?_naturalText]
    change some (some (-(n.natAbs : Int)), []) = _
    rw [same]
  next above =>
    have same : (n.natAbs : Int) = n := by omega
    simp only [readExponent, true_or, if_true, splitSign, all, natural?_naturalText,
      Bool.false_eq_true, if_false]
    change some (some (n.natAbs : Int), []) = _
    rw [same]

theorem readExponent_none : readExponent [] = some (none, []) := rfl

section Layouts

variable {d : Decimal}

theorem naturalText_worth (n : Nat) : Nat.ofDigitChars 10 (naturalText n) 0 = n :=
  Nat.ofDigitChars_ten_toDigits

theorem zeros_digits (count : Nat) : ∀ c ∈ zeros count, c.isDigit = true := by
  intro c member
  rw [List.eq_of_mem_replicate member]
  decide

theorem readUnsigned_whole (positive : 0 < d.digits) (above : 0 ≤ d.exponent)
    (fits : d.digits * 10 ^ (d.exponent.toNat + 1) < UInt64.size) :
    readUnsigned negative (positional d ++ ['.', '0']) =
      some (scaled? negative ⟨d.digits * 10 ^ (d.exponent.toNat + 1), -1⟩, []) := by
  let whole := naturalText d.digits ++ zeros d.exponent.toNat
  have text : positional d ++ ['.', '0'] = whole ++ (pointed ['0'] ++ []) := by
    simp [whole, positional, above, pointed]
  have leading : isWholePart whole = true := by
    refine isWholePart_of_head (by simp [whole, naturalText_ne_nil]) ?_
    rw [List.head?_append_of_ne_nil _ (naturalText_ne_nil _)]
    exact naturalText_head positive
  have digits : ∀ c ∈ whole, c.isDigit = true :=
    List.forall_mem_append.2 ⟨naturalText_digits, zeros_digits _⟩
  have worth : Nat.ofDigitChars 10 (whole ++ ['0']) 0 =
      d.digits * 10 ^ (d.exponent.toNat + 1) := by
    have last : ['0'] = zeros 1 := rfl
    simp only [whole, last, zeros, Nat.ofDigitChars_append, Nat.ofDigitChars_replicate_zero,
      naturalText_worth]
    ring
  have exponent : (none : Option Int).getD 0 - (['0'].length : Int) = -1 := rfl
  have told : ['0'] ≠ [] ∨ (none : Option Int) ≠ none := .inl (List.cons_ne_nil _ _)
  have zero : ∀ c ∈ ['0'], c.isDigit = true := zeros_digits 1
  rw [text, readUnsigned_spelled leading digits zero readExponent_none (by simp) told worth fits,
    exponent]

theorem readUnsigned_positional (positive : 0 < d.digits) (below : d.exponent < 0)
    (fits : d.digits < UInt64.size) :
    readUnsigned negative (positional d) = some (scaled? negative d, []) := by
  let places := (-d.exponent).toNat
  let padded := zeros (places + 1 - (naturalText d.digits).length) ++ naturalText d.digits
  let count := padded.length - places
  have some : 0 < places := by omega
  have long : places < padded.length := by
    simp only [padded, zeros, List.length_append, List.length_replicate]
    omega
  have nonempty : padded.drop count ≠ [] := by
    rw [Ne, List.drop_eq_nil_iff]
    omega
  have text : positional d = padded.take count ++ (pointed (padded.drop count) ++ []) := by
    rw [positional, if_neg (by omega), pointed, if_neg (by simpa using nonempty), List.append_nil]
  have digits : ∀ c ∈ padded, c.isDigit = true :=
    List.forall_mem_append.2 ⟨zeros_digits _, naturalText_digits⟩
  have worth : Nat.ofDigitChars 10 (padded.take count ++ padded.drop count) 0 = d.digits := by
    rw [List.take_append_drop, Nat.ofDigitChars_append, zeros, Nat.ofDigitChars_replicate_zero,
      Nat.mul_zero, naturalText_worth]
  -- Zeros are put in front only up to the one before the point.
  have leading : isWholePart (padded.take count) = true := by
    by_cases short : (naturalText d.digits).length ≤ places
    · have one : count = 1 := by
        simp only [count, padded, zeros, List.length_append, List.length_replicate]
        omega
      have more : places + 1 - (naturalText d.digits).length =
          places - (naturalText d.digits).length + 1 := by omega
      rw [one]
      simp only [padded, more, zeros, List.replicate_succ]
      rfl
    · have none : places + 1 - (naturalText d.digits).length = 0 := by omega
      have bare : padded = naturalText d.digits := by simp [padded, none, zeros]
      have some : count ≠ 0 := by
        simp only [count, bare]
        omega
      rw [bare]
      refine isWholePart_of_head (by simp [some, naturalText_ne_nil]) ?_
      rw [List.head?_take, if_neg some]
      exact naturalText_head positive
  have exponent : (none : Option Int).getD 0 - ((padded.drop count).length : Int) = d.exponent := by
    rw [List.length_drop, Option.getD_none]
    omega
  rw [text, readUnsigned_spelled leading (fun c member => digits c (List.mem_of_mem_take member))
    (fun c member => digits c (List.mem_of_mem_drop member)) readExponent_none (by simp)
    (.inl nonempty) worth fits, exponent]

theorem readUnsigned_scientific (positive : 0 < d.digits) (fits : d.digits < UInt64.size) :
    readUnsigned negative (scientific d) = some (scaled? negative d, []) := by
  have digits := @naturalText_digits d.digits
  have leading := naturalText_head positive
  have worth := naturalText_worth d.digits
  obtain ⟨first, others, text⟩ := List.exists_cons_of_ne_nil (naturalText_ne_nil d.digits)
  let lead := d.exponent + (others.length : Nat)
  have layout : scientific d = [first] ++ (pointed others ++ ('e' :: signedText lead)) := by
    simp only [scientific, text, List.length_cons, Nat.add_sub_cancel, lead, pointed]
    cases others <;> rfl
  rw [text] at digits leading worth
  obtain ⟨digit, digits⟩ := List.forall_mem_cons.1 digits
  have whole : isWholePart [first] = true := isWholePart_of_head (by simp) (by simpa using leading)
  have exponent : (some lead).getD 0 - (others.length : Int) = d.exponent := by
    rw [Option.getD_some]
    omega
  rw [layout, readUnsigned_spelled whole (by simpa using digit) digits
    (readExponent_signedText lead) (by simp) (.inr (by simp)) worth fits, exponent]

theorem readUnsigned_wireDecimal (positive : 0 < d.digits)
    (fits : d.spelled.digits < UInt64.size) :
    readUnsigned negative (wireDecimal d) = some (scaled? negative d.spelled, []) := by
  have count : (naturalText d.digits).length = digitCount d.digits := rfl
  rw [Decimal.spelled] at fits ⊢
  simp only [wireDecimal, count]
  by_cases short : 0 ≤ d.exponent ∧ d.exponent + (digitCount d.digits - 1 : Nat) < 16
  · rw [if_pos short] at fits ⊢
    rw [if_pos ⟨by omega, short.2⟩, if_pos short.1]
    exact readUnsigned_whole positive short.1 fits
  · rw [if_neg short] at fits ⊢
    split
    next plain =>
      have below : ¬ 0 ≤ d.exponent := fun above => short ⟨above, plain.2⟩
      rw [if_neg below]
      exact readUnsigned_positional positive (not_le.1 below) fits
    next => exact readUnsigned_scientific positive fits

end Layouts

end Json

end Spellcraft
