import Spellcraft.Json.Reader
import Spellcraft.Json.Writer
import Spellcraft.Json.Slot
import Spellcraft.Proofs.Number.Wire
import Spellcraft.Proofs.Text

set_option autoImplicit false

namespace Spellcraft.Json

/-- The double is finite and is what its text is read as when it stands alone. -/
def ReadsBack (x : Float) : Prop :=
  Number.isFinite x = true ∧ (parse? (real x).compact).bind real? = some x

instance (x : Float) : Decidable (ReadsBack x) :=
  inferInstanceAs (Decidable (_ ∧ _))

def closes (c : Char) : Bool :=
  isSpace c || c == ',' || c == ']' || c == '\x7d'

def Ends (rest : List Char) : Prop :=
  ∀ c ∈ rest.head?, closes c = true

theorem closes_apart {c : Char} (closing : closes c = true) :
    Number.isMark c = false ∧ c ≠ 'E' := by
  simp only [closes, isSpace, Bool.or_eq_true, beq_iff_eq] at closing
  rcases closing with (((((rfl | rfl) | rfl) | rfl) | rfl) | rfl) | rfl <;> decide

theorem closes_of_isMark {c : Char} (mark : Number.isMark c = true) : closes c = false := by
  rw [Bool.eq_false_iff]
  intro closing
  simp [(closes_apart closing).1] at mark

theorem isSpace_of_not_closes {c : Char} (opening : closes c = false) : isSpace c = false := by
  simp only [closes, Bool.or_eq_false_iff] at opening
  exact opening.1.1.1

theorem Ends.digits {rest : List Char} (ends : Ends rest) : ∀ c ∈ rest.head?, c.isDigit = false :=
  fun c first => (Number.isMark_eq_false.1 (closes_apart (ends c first)).1).1

variable {text rest left digits : List Char} {exponent : Option Int}

-- Each part of a number stops at the same place whatever follows, if that cannot belong to it.
theorem readFraction_plain (apart : '.' ∉ text.head?) : readFraction text = some ([], text) := by
  rw [readFraction.eq_def]
  split
  · simp at apart
  · rfl

theorem readFraction_append (read : readFraction text = some (digits, left)) (ends : Ends rest) :
    readFraction (text ++ rest) = some (digits, left ++ rest) := by
  have run {items : List Char} := @Text.run_append _ Char.isDigit items rest ends.digits
  have plain (apart : '.' ∉ text.head?) (behind : '.' ∉ (text ++ rest).head?) :
      readFraction (text ++ rest) = some (digits, left ++ rest) := by
    rw [readFraction_plain apart] at read
    cases read
    exact readFraction_plain behind
  cases text with
  | nil =>
    refine plain (by simp) fun first => ?_
    exact absurd (closes_apart (ends '.' first)).1 (by decide)
  | cons c text =>
    by_cases point : c = '.'
    · subst point
      rw [readFraction] at read
      rw [List.cons_append, readFraction, run.1, run.2]
      split at read <;> cases read
      next digit => simp [digit]
    · exact plain (by simpa using point) (by simpa using point)

theorem splitSign_append (nonempty : text ≠ []) :
    Number.splitSign (text ++ rest) =
      ((Number.splitSign text).1, (Number.splitSign text).2 ++ rest) := by
  obtain ⟨c, text, rfl⟩ := List.exists_cons_of_ne_nil nonempty
  by_cases minus : c = '-'
  · simp [minus, Number.splitSign]
  by_cases plus : c = '+'
  · simp [plus, Number.splitSign]
  simp [minus, plus, Number.splitSign]

theorem readExponent_append (read : readExponent text = some (exponent, left)) (ends : Ends rest) :
    readExponent (text ++ rest) = some (exponent, left ++ rest) := by
  have run {items : List Char} := @Text.run_append _ Char.isDigit items rest ends.digits
  cases text with
  | nil =>
    cases read
    cases rest with
    | nil => rfl
    | cons c rest =>
      obtain ⟨unmarked, large⟩ := closes_apart (ends c rfl)
      obtain ⟨-, -, -, -, small⟩ := Number.isMark_eq_false.1 unmarked
      simp [readExponent, small, large]
  | cons mark text =>
    rw [List.cons_append, readExponent]
    rw [readExponent] at read
    split at read
    · next exponential =>
      have nonempty : text ≠ [] := by
        rintro rfl
        cases read
      rw [if_pos exponential, splitSign_append nonempty]
      dsimp only at read ⊢
      rw [run.1, run.2]
      obtain ⟨n, value, told⟩ := Option.map_eq_some_iff.1 read
      cases told
      exact Option.map_eq_some_iff.2 ⟨n, value, rfl⟩
    · next plain =>
      cases read
      rw [if_neg plain]
      rfl

def readUnsigned (negative : Bool) (body : List Char) : Option (Option Numeral × List Char) :=
  if isWholePart (body.takeWhile Char.isDigit) then do
    let (fraction, rest) ← readFraction (body.dropWhile Char.isDigit)
    let (exponent, rest) ← readExponent rest
    return ((NumberText.mk negative (body.takeWhile Char.isDigit) fraction exponent).value?, rest)
  else none

theorem readNumber_minus (body : List Char) :
    readNumber ('-' :: body) = readUnsigned true body := rfl

theorem readNumber_plain (apart : '-' ∉ text.head?) :
    readNumber text = readUnsigned false text := by
  rw [readNumber.eq_def, readUnsigned]
  split
  · next same =>
    split at same
    · simp at apart
    · cases same
      rfl

variable {negative : Bool} {body : List Char} {value : Option Numeral}

theorem readUnsigned_eq_some :
    readUnsigned negative body = some (value, left) ↔
      ∃ fraction rest exponent,
        isWholePart (body.takeWhile Char.isDigit) = true ∧
        readFraction (body.dropWhile Char.isDigit) = some (fraction, rest) ∧
        readExponent rest = some (exponent, left) ∧
        value =
          (NumberText.mk negative (body.takeWhile Char.isDigit) fraction exponent).value? := by
  rw [readUnsigned]
  split
  · next whole =>
    simp only [whole, true_and, Option.bind_eq_bind, Option.bind_eq_some_iff, Prod.exists,
      Option.pure_def, Option.some.injEq, Prod.mk.injEq]
    constructor
    · rintro ⟨fraction, rest, first, exponent, last, second, rfl, rfl⟩
      exact ⟨fraction, rest, exponent, first, second, rfl⟩
    · rintro ⟨fraction, rest, exponent, first, second, rfl⟩
      exact ⟨fraction, rest, first, exponent, left, second, rfl, rfl⟩
  · next whole => simp [whole]

theorem readUnsigned_append (read : readUnsigned negative body = some (value, left))
    (ends : Ends rest) : readUnsigned negative (body ++ rest) = some (value, left ++ rest) := by
  have run := @Text.run_append _ Char.isDigit body rest ends.digits
  obtain ⟨fraction, middle, exponent, whole, first, second, rfl⟩ := readUnsigned_eq_some.1 read
  rw [← run.1] at whole ⊢
  refine readUnsigned_eq_some.2 ⟨fraction, middle ++ rest, exponent, whole, ?_, ?_, rfl⟩
  · rw [run.2]
    exact readFraction_append first ends
  · exact readExponent_append second ends

theorem readNumber_append (read : readNumber text = some (value, left)) (ends : Ends rest) :
    readNumber (text ++ rest) = some (value, left ++ rest) := by
  cases text with
  | nil => cases read
  | cons c text =>
    by_cases minus : c = '-'
    · subst minus
      exact readUnsigned_append read ends
    · have apart (others : List Char) : '-' ∉ (c :: others).head? := by
        simpa using minus
      rw [readNumber_plain (apart text)] at read
      rw [List.cons_append, readNumber_plain (apart _)]
      exact readUnsigned_append read ends

theorem value?_eq_real? {number : NumberText}
    (pointed : number.fraction ≠ [] ∨ number.exponent ≠ none) : number.value? = number.real? := by
  have unlike : (number.fraction.isEmpty && number.exponent.isNone) = false := by
    rw [Bool.eq_false_iff]
    rcases pointed with fraction | exponent
    · simp [fraction]
    · simp [exponent]
  simp [NumberText.value?, unlike]

theorem readNumber_first (read : (readNumber text).isSome = true) :
    ∃ c rest, text = c :: rest ∧ (c = '-' ∨ c.isDigit = true) := by
  cases text with
  | nil => cases read
  | cons c text =>
    refine ⟨c, text, rfl, ?_⟩
    by_cases minus : c = '-'
    · exact .inl minus
    · rw [readNumber_plain (by simpa using minus), readUnsigned] at read
      by_contra other
      simp [not_or.1 other, isWholePart] at read

theorem le_ofDigitChars (digits : List Char) (start : Nat) :
    start ≤ Nat.ofDigitChars 10 digits start := by
  rw [Nat.ofDigitChars_eq_ofDigitChars_zero]
  exact Nat.le_add_right_of_le (Nat.le_mul_of_pos_left start (Nat.pow_pos (by decide)))

theorem takeDigits_eq {start : Nat} (fits : Nat.ofDigitChars 10 digits start < UInt64.size) :
    takeDigits start digits = (Nat.ofDigitChars 10 digits start, []) := by
  induction digits generalizing start with
  | nil => rfl
  | cons digit rest ih =>
    rw [Nat.ofDigitChars_cons] at fits ⊢
    rw [takeDigits, if_pos (Nat.lt_of_le_of_lt (le_ofDigitChars rest _) fits), ih fits]

theorem takeDigits_naturalText {n : Nat} (fits : n < UInt64.size) :
    takeDigits 0 (Number.naturalText n) = (n, []) := by
  have worth : Nat.ofDigitChars 10 (Number.naturalText n) 0 = n := Nat.ofDigitChars_ten_toDigits
  rw [takeDigits_eq (by rwa [worth]), worth]

theorem isWholePart_of_head (nonempty : digits ≠ []) (leading : ∀ c ∈ digits.head?, c ≠ '0') :
    isWholePart digits = true := by
  rw [isWholePart.eq_def]
  split
  · next none => exact absurd rfl nonempty
  · next zero => simp at leading
  · next first rest _ many => simpa using leading

theorem isWholePart_naturalText (n : Nat) : isWholePart (Number.naturalText n) = true := by
  rcases Nat.eq_zero_or_pos n with rfl | positive
  · rfl
  · exact isWholePart_of_head (Number.naturalText_ne_nil n) (Number.naturalText_head positive)

theorem readUnsigned_naturalText (n : Nat) :
    readUnsigned negative (Number.naturalText n) =
      some ((NumberText.mk negative (Number.naturalText n) [] none).value?, []) := by
  have whole : (Number.naturalText n).takeWhile Char.isDigit = Number.naturalText n :=
    List.takeWhile_eq_self_iff.2 Number.naturalText_digits
  have rest : (Number.naturalText n).dropWhile Char.isDigit = [] :=
    List.dropWhile_eq_nil_iff.2 Number.naturalText_digits
  simp [readUnsigned, whole, rest, isWholePart_naturalText, readFraction, readExponent]

theorem readNumber_natural (value : UInt64) :
    readNumber (Number.naturalText value.toNat) = some (some (.natural value), []) := by
  have apart : '-' ∉ (Number.naturalText value.toNat).head? := by
    intro minus
    have digit := Number.naturalText_digits '-' (List.mem_of_mem_head? minus)
    revert digit
    decide
  rw [readNumber_plain apart, readUnsigned_naturalText, NumberText.value?]
  simp [takeDigits_naturalText value.toNat_lt_size]

theorem readNumber_negative {value : Int64} (below : value < 0) :
    readNumber (Number.integerText value.toInt) = some (some (.negative value), []) := by
  have below : value.toInt < 0 := Int64.lt_iff_toInt_lt.1 below
  have least := value.le_toInt
  have fits : value.toInt.natAbs < UInt64.size := by
    simp only [UInt64.size]
    omega
  have ranged : ¬ (value.toInt.natAbs = 0 ∨ 0x8000000000000000 < value.toInt.natAbs) := by omega
  have size : -(value.toInt.natAbs : Int) = value.toInt := by omega
  rw [Number.integerText, if_pos below, readNumber_minus, readUnsigned_naturalText,
    NumberText.value?]
  simp only [takeDigits_naturalText fits, ranged, size, List.isEmpty_nil, Option.isNone_none,
    Bool.and_self, Bool.not_true, Bool.false_eq_true, if_true, if_false, Int64.ofInt_toInt]

theorem skipSpace_cons {c : Char} (shown : isSpace c = false) :
    skipSpace (c :: text) = c :: text :=
  List.dropWhile_cons_of_neg (by simp [shown])

-- Every other form of a value starts with a character that stands in no number.
theorem readValue_number {bound : Nat} {c : Char} (mark : Number.isMark c = true) :
    readValue (bound + 1) (c :: text) =
      (readNumber (c :: text)).map fun (value, left) => (.number value, left) := by
  rw [readValue, skipSpace_cons (isSpace_of_not_closes (closes_of_isMark mark))]
  split
  case h_7 => rfl
  all_goals
    next same =>
    obtain ⟨rfl, -⟩ := List.cons.inj same
    exact absurd mark (by decide)

theorem parse?_eq_some {json : Json} :
    parse? text = some json ↔
      ∃ rest, readValue (2 * text.length + 2) text = some (json, rest) ∧ skipSpace rest = [] := by
  rw [parse?]
  split
  · next read => simp [read, and_comm]
  · next unread => simp [unread]

end Spellcraft.Json
