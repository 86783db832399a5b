import Spellcraft.Proofs.Json.Written

/-!
Doubles read back from their texts. Every finite double is read as some finite double, since the
digits of its text are no more than a significand holds and no rounding takes it to an overflow. It
is read as itself if its shortest decimal needs no rounding but the last one.
-/

set_option autoImplicit false

namespace Spellcraft.Json

open Number

section Decimals

variable {b : Binary} {d : Decimal}

theorem spelled_value (d : Decimal) : d.spelled.value = d.value := by
  rw [Decimal.spelled]
  split
  next short =>
    have place : (10 : ℚ) ^ d.exponent = 10 ^ (d.exponent.toNat + 1) * 10 ^ (-1 : Int) := by
      rw [← zpow_natCast, ← zpow_add₀ (by norm_num)]
      congr 1
      omega
    rw [Decimal.value, Decimal.value, place]
    push_cast
    ring
  next => rfl

theorem spelled_digits (positive : 0 < d.digits) (few : d.digits ≤ 10 ^ 17) :
    0 < d.spelled.digits ∧ d.spelled.digits < 2 ^ 64 := by
  rw [Decimal.spelled]
  split
  next short =>
    obtain ⟨-, below⟩ := digitCount_spec positive
    have some : 0 < digitCount d.digits := Nat.length_toDigits_pos
    refine ⟨by positivity, ?_⟩
    calc d.digits * 10 ^ (d.exponent.toNat + 1)
        ≤ 10 ^ digitCount d.digits * 10 ^ (d.exponent.toNat + 1) :=
          Nat.mul_le_mul_right _ below.le
      _ = 10 ^ (digitCount d.digits + (d.exponent.toNat + 1)) := (Nat.pow_add ..).symm
      _ ≤ 10 ^ 17 := Nat.pow_le_pow_right (by decide) (by omega)
      _ < 2 ^ 64 := by decide
  next => exact ⟨positive, lt_of_le_of_lt few (by decide)⟩

theorem spelled_of_above (above : 0 ≤ d.spelled.exponent) : d.spelled = d := by
  rw [Decimal.spelled] at above ⊢
  split at above
  next => exact absurd above (by simp)
  next long => rw [if_neg long]

theorem digits_pos (valid : b.Valid) (within : Within b.mantissa b.exponent d.value) :
    0 < d.digits := by
  have unit : (0 : ℚ) < 2 ^ b.exponent := by positivity
  have some : (1 : ℚ) ≤ b.mantissa := by exact_mod_cast valid.positive
  have near := (le_div_iff₀ unit).1 within.1.above
  by_contra none
  have none : d.digits = 0 := by omega
  rw [Decimal.value, none] at near
  nlinarith

theorem value_le (within : Within b.mantissa b.exponent d.value) :
    d.value ≤ (b.mantissa + 1 / 2) * 2 ^ b.exponent := by
  have unit : (0 : ℚ) < 2 ^ b.exponent := by positivity
  exact (div_le_iff₀ unit).1 within.1.below

theorem value_le_of_lower (valid : b.Valid) (within : Within b.mantissa b.exponent d.value)
    (lower : b.exponent < 971 ∨ b.mantissa + 4 ≤ 2 ^ 53) :
    d.value ≤ (2 ^ 53 - 7 / 2) * 2 ^ (971 : Int) := by
  have near := value_le within
  have fits : (b.mantissa : ℚ) + 1 ≤ 2 ^ 53 := by exact_mod_cast valid.stored.fits
  have last : (2 : ℚ) ^ b.exponent ≤ 2 ^ (971 : Int) :=
    zpow_le_zpow_right₀ (by norm_num) valid.stored.greatest
  have unit : (0 : ℚ) < 2 ^ b.exponent := by positivity
  rcases lower with below | few
  · have half : 2 * (2 : ℚ) ^ b.exponent ≤ 2 ^ (971 : Int) := by
      rw [← power_succ]
      exact zpow_le_zpow_right₀ (by norm_num) (by omega)
    generalize (2 : ℚ) ^ (971 : Int) = top at half
    nlinarith
  · have few : (b.mantissa : ℚ) + 4 ≤ 2 ^ 53 := by exact_mod_cast few
    generalize (2 : ℚ) ^ (971 : Int) = top at last
    nlinarith

theorem exponent_le (positive : 0 < d.digits)
    (below : d.value ≤ (2 ^ 53 - 7 / 2) * 2 ^ (971 : Int)) : d.exponent ≤ 308 := by
  by_contra far
  have one : (1 : ℚ) ≤ d.digits := by exact_mod_cast positive
  have power : (10 : ℚ) ^ (309 : Int) ≤ 10 ^ d.exponent :=
    zpow_le_zpow_right₀ (by norm_num) (by omega)
  have large : (2 : ℚ) ^ (1024 : Int) ≤ 10 ^ (309 : Int) := by
    have left : (2 : ℚ) ^ (1024 : Int) = (2 ^ (73 : Int)) ^ (14 : Nat) * 2 ^ (2 : Int) := by
      rw [← zpow_natCast, ← zpow_mul, ← power_add]
      congr 1
    have right : (10 : ℚ) ^ (309 : Int) = (10 ^ (22 : Int)) ^ (14 : Nat) * 10 ^ (1 : Int) := by
      rw [← zpow_natCast, ← zpow_mul, ← zpow_add₀ (by norm_num)]
      congr 1
    rw [left, right]
    gcongr <;> norm_num
  have split : (2 : ℚ) ^ (1024 : Int) = 2 ^ (53 : Nat) * 2 ^ (971 : Int) := by
    rw [← zpow_natCast, ← power_add]
    rfl
  have unit : (0 : ℚ) < 2 ^ (971 : Int) := by positivity
  have top : d.value < 2 ^ (53 : Nat) * 2 ^ (971 : Int) := by
    generalize (2 : ℚ) ^ (971 : Int) = top at below unit
    nlinarith
  rw [split] at large
  rw [Decimal.value] at top
  have self : (10 : ℚ) ^ d.exponent ≤ d.digits * 10 ^ d.exponent :=
    le_mul_of_one_le_left (by positivity) one
  exact absurd (large.trans (power.trans self)) (not_le.2 top)

-- Only the three doubles before the overflow are too near to it to be settled by their size.
theorem scale?_shortest (valid : b.Valid) :
    let d := (b.shortest .even).spelled
    ∃ y, scale? 4 (ofNatural d.digits) d.exponent = some y ∧ y.isFinite = true := by
  intro d
  obtain ⟨within, few⟩ := shortest_spec valid .even
  have positive := digits_pos valid within
  obtain ⟨some, fits⟩ := spelled_digits positive few
  by_cases lower : b.exponent < 971 ∨ b.mantissa + 4 ≤ 2 ^ 53
  · refine scale?_finite some fits (fun above => ?_) 3
    have same : d = b.shortest .even := spelled_of_above above
    have below := value_le_of_lower valid within lower
    change d.exponent ≤ 308 ∧ d.value ≤ _
    rw [same]
    exact ⟨exponent_le positive below, below⟩
  · have fits := valid.stored.fits
    have exponent : b.exponent = 971 := by
      have := valid.stored.greatest
      omega
    have close : b.closeBelow = false := by
      rw [Bool.eq_false_iff, Ne, valid.closeBelow_iff]
      omega
    have listed : b.mantissa ∈ [2 ^ 53 - 1, 2 ^ 53 - 2, 2 ^ 53 - 3] := by
      simp only [List.mem_cons, List.not_mem_nil]
      omega
    have highest : ∀ mantissa ∈ [2 ^ 53 - 1, 2 ^ 53 - 2, 2 ^ 53 - 3],
        let d := (Binary.shortest ⟨mantissa, 971, false⟩ .even).spelled
        (scale? 4 (ofNatural d.digits) d.exponent).any Float.isFinite = true := by
      decide +kernel
    have same : (⟨b.mantissa, 971, false⟩ : Binary) = b := by
      rw [← exponent, ← close]
    have settled := highest b.mantissa listed
    rw [same] at settled
    exact (Option.any_eq_true _ _).1 settled

end Decimals

section Doubles

variable {x : Float} {b : Binary} {text body : List Char}

theorem readNumber_withSign {value : Option Numeral}
    (read : readUnsigned (isNegative x) body = some (value, [])) :
    readNumber (withSign x body) = some (value, []) := by
  have apart : '-' ∉ body.head? := by
    intro minus
    obtain ⟨rest, rfl⟩ := List.head?_eq_some_iff.1 minus
    cases read
  rw [withSign]
  split
  next negative => rwa [readNumber_minus, ← negative]
  next plain => rwa [readNumber_plain apart, ← Bool.eq_false_iff.2 plain]

theorem readNumber_shortest (finite : magnitude x = .finite b) :
    readNumber (withSign x (wireDecimal (b.shortest .even))) =
      some (scaled? (isNegative x) (b.shortest .even).spelled, []) := by
  obtain ⟨valid, -⟩ := magnitude_valid finite
  obtain ⟨within, few⟩ := shortest_spec valid .even
  have positive := digits_pos valid within
  obtain ⟨-, fits⟩ := spelled_digits positive few
  exact readNumber_withSign (readUnsigned_wireDecimal positive fits)

theorem isFinite_withSign {y : Float} (finite : y.isFinite = true) (negative : Bool) :
    (if negative then -y else y).isFinite = true := by
  cases negative with
  | false => exact finite
  | true => exact neg_finite finite

theorem wire_read (finite : isFinite x = true) :
    ∃ text y, wire? x = some text ∧ readNumber text = some (some (.real y), []) ∧
      y.isFinite = true := by
  rw [isFinite] at finite
  cases size : magnitude x with
  | infinite | notNumber =>
    rw [size] at finite
    cases finite
  | zero =>
    refine ⟨withSign x ['0', '.', '0'], if isNegative x then -0.0 else 0.0, by rw [wire?, size], ?_,
      isFinite_withSign (by decide) _⟩
    refine readNumber_withSign ?_
    cases isNegative x <;> rfl
  | finite b =>
    obtain ⟨valid, -⟩ := magnitude_valid size
    obtain ⟨y, scaled, finite⟩ := scale?_shortest valid
    refine ⟨_, if isNegative x then -y else y, by rw [wire?, size], ?_,
      isFinite_withSign finite _⟩
    rw [readNumber_shortest size, scaled?, scaled]
    rfl

theorem parse?_of_readNumber {numeral : Numeral} (marks : ∀ c ∈ text, isMark c = true)
    (read : readNumber text = some (some numeral, [])) :
    parse? text = some (.number (some numeral)) := by
  obtain ⟨c, rest, rfl⟩ : ∃ c rest, text = c :: rest := by
    refine List.exists_cons_of_ne_nil ?_
    rintro rfl
    cases read
  refine parse?_eq_some.2 ⟨[], ?_, rfl⟩
  rw [readValue_number (marks c List.mem_cons_self), read]
  rfl

/-- What a double is read as from its own text. -/
def readAs (x : Float) : Float :=
  ((parse? (real x).compact).bind real?).getD x

theorem compact_real (written : wire? x = some text) : (real x).compact = text := by
  simp [real, Json.compact, leafText, Numeral.text, written]

theorem readAs_spec (finite : isFinite x = true) :
    ∃ text, wire? x = some text ∧ readNumber text = some (some (.real (readAs x)), []) ∧
      (parse? (real x).compact).bind real? = some (readAs x) ∧
      (readAs x).isFinite = true := by
  obtain ⟨text, y, written, read, finite⟩ := wire_read finite
  have parsed := parse?_of_readNumber (wire?_marks written) read
  have same : (parse? (real x).compact).bind real? = some y := by
    rw [compact_real written, parsed]
    rfl
  have result : readAs x = y := by rw [readAs, same, Option.getD_some]
  rw [result]
  exact ⟨text, written, read, same, finite⟩

theorem readsBack_iff : ReadsBack x ↔ isFinite x = true ∧ readAs x = x := by
  refine and_congr_right fun finite => ?_
  obtain ⟨-, -, -, same, -⟩ := readAs_spec finite
  rw [same, Option.some.injEq]

theorem readAs_shortest (size : magnitude x = .finite b) :
    let d := (b.shortest .even).spelled
    ∃ y, scale? 4 (ofNatural d.digits) d.exponent = some y ∧ y.isFinite = true ∧
      readAs x = if isNegative x then -y else y := by
  intro d
  obtain ⟨valid, -⟩ := magnitude_valid size
  obtain ⟨y, scaled, finite⟩ := scale?_shortest valid
  obtain ⟨text, written, read, -, -⟩ := readAs_spec (by rw [isFinite, size] : isFinite x = true)
  obtain rfl : withSign x (wireDecimal (b.shortest .even)) = text := by
    simpa [wire?, size] using written
  rw [readNumber_shortest size, scaled?, scaled] at read
  have same : (if isNegative x then -y else y) = readAs x := by simpa using read
  exact ⟨y, scaled, finite, same.symm⟩

def isBrief (x : Float) : Bool :=
  match magnitude x with
  | .zero => true
  | .finite b =>
    let d := (b.shortest .even).spelled
    d.digits < 2 ^ 53 && d.exponent.natAbs ≤ 22
  | .infinite | .notNumber => false

-- There is a single rounding then, and it goes to the double that the decimal was made for.
theorem readsBack_of_isBrief (brief : isBrief x = true) : ReadsBack x := by
  cases size : magnitude x with
  | infinite | notNumber => simp [isBrief, size] at brief
  | zero =>
    rcases zero_cases size with rfl | rfl <;> decide
  | finite b =>
    obtain ⟨valid, sign, positive, shape⟩ := magnitude_valid size
    obtain ⟨within, few⟩ := shortest_spec valid .even
    obtain ⟨some, -⟩ := spelled_digits (digits_pos valid within) few
    simp only [isBrief, size, Bool.and_eq_true, decide_eq_true_eq] at brief
    obtain ⟨y, scaled, rounds⟩ := scale?_exact some brief.1 brief.2 3
    obtain ⟨y', scaled', finite, same⟩ := readAs_shortest size
    obtain rfl : y = y' := Option.some.inj (scaled.symm.trans scaled')
    have nearest : Rounds .positive (b.shortest .even).spelled.value
        (.finite .positive b.mantissa b.exponent positive) := by
      rw [spelled_value]
      exact within.rounds valid.stored positive .positive
    have last := rounds.unique nearest
    refine readsBack_iff.2 ⟨by rw [isFinite, size], parts_injective ?_⟩
    rw [same, isNegative_finite shape, shape]
    cases sign with
    | positive => exact last
    | negative =>
      change parts (-y) = _
      rw [parts_neg, last]
      rfl

end Doubles

end Spellcraft.Json
