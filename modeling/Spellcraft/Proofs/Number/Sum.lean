import Spellcraft.Proofs.Number.Rounding

set_option autoImplicit false

namespace Spellcraft.Number

open Float.Model (UnpackedFloat Format)
open Float.Model.UnpackedFloat

def IsPlain (sign : Sign) (value : UnpackedFloat) : Prop :=
  value = .zero sign ∨
    ∃ mantissa exponent positive, value = .finite sign mantissa exponent positive

theorem unpack_plain (sign : Sign) {exponent : BitVec 11} (mantissa : BitVec 52)
    (ordinary : exponent ≠ -1#11) :
    IsPlain sign (unpack .binary64 (packComponents .binary64 sign exponent mantissa)) := by
  simp only [unpack, unpackExponent_packComponents, unpackMantissa_packComponents,
    unpackSign_packComponents, Sign.ofBitVec_toBitVec, if_neg ordinary]
  split
  · split
    · exact .inl rfl
    · exact .inr ⟨_, _, _, rfl⟩
  · exact .inr ⟨_, _, _, rfl⟩

-- Only a great exponent turns a finite double into an infinite one.
theorem repack_finite (sign : Sign) (mantissa : Nat) (exponent : Int) (positive : 0 < mantissa) :
    IsPlain sign (repack (.finite sign mantissa exponent positive)) ∨
      repack (.finite sign mantissa exponent positive) = .infinity sign ∧ 971 < exponent := by
  by_cases great : 972 ≤ exponent
  · exact .inr ⟨repack_great great, by omega⟩
  · refine .inl ?_
    have small : ¬ 2048 ≤ (exponent + 1023 + 52).toNat + 1 := by omega
    simp only [repack, pack]
    split
    next large => exact absurd large small
    next =>
      split
      · apply unpack_plain
        intro same
        have value := congrArg BitVec.toNat same
        change (exponent + 1023 + 52).toNat % 2048 = 2047 at value
        omega
      · apply unpack_plain
        decide

theorem isNaN_repack (value : UnpackedFloat) : (repack value).isNaN = value.isNaN := by
  cases value with
  | notANumber => rfl
  | infinity sign => cases sign <;> rfl
  | zero sign => cases sign <;> rfl
  | finite sign mantissa exponent positive =>
    rcases repack_finite sign mantissa exponent positive with plain | ⟨infinite, -⟩
    · rcases plain with zero | ⟨_, _, _, finite⟩
      · rw [zero]
        rfl
      · rw [finite]
        rfl
    · rw [infinite]
      rfl

def notNegative : UnpackedFloat → Bool
  | .infinity .positive | .zero _ | .finite .positive .. => true
  | .notANumber | .infinity .negative | .finite .negative .. => false

theorem IsPlain.notNegative {value : UnpackedFloat} (plain : IsPlain .positive value) :
    notNegative value = true := by
  rcases plain with rfl | ⟨_, _, _, rfl⟩
  · rfl
  · rfl

theorem notNegative_repack {value : UnpackedFloat} (above : notNegative value = true) :
    notNegative (repack value) = true := by
  rcases value with (_ | _) | _ | (_ | _) | ⟨_ | _, mantissa, exponent, positive⟩
  case finite.positive =>
    rcases repack_finite .positive mantissa exponent positive with plain | ⟨infinite, -⟩
    · exact plain.notNegative
    · rw [infinite]
      rfl
  all_goals first | rfl | cases above

theorem zero_le_iff {x : Float} : 0.0 ≤ x ↔ notNegative (parts x) = true := by
  have zero : rank 0.0 = some (toLex (0, toLex (0, 0))) := by decide
  rw [le_iff, zero, rank]
  rcases parts x with (_ | _) | _ | _ | ⟨_ | _, mantissa, exponent, positive⟩ <;>
    simp [notNegative, partsRank, Prod.Lex.toLex_le_toLex]

theorem roundWithAccuracy_plain (sign : Sign) (mantissa : Nat) (exponent : Int)
    (accuracy : Accuracy) :
    IsPlain sign (roundWithAccuracy .binary64 sign mantissa exponent accuracy) := by
  simp only [roundWithAccuracy]
  split
  · exact .inl rfl
  · exact .inr ⟨_, _, _, rfl⟩

theorem normalize_plain (mantissa exponent : Int) :
    ∃ sign, IsPlain sign (UnpackedFloat.normalize .binary64 mantissa exponent .positive) ∧
      (0 ≤ mantissa → sign = .positive) := by
  rw [UnpackedFloat.normalize]
  split
  next below =>
    refine ⟨.negative, roundWithAccuracy_plain .., fun above => ?_⟩
    exact absurd (compare_lt_iff_lt.1 below) (not_lt_of_ge above)
  next => exact ⟨.positive, .inl rfl, fun _ => rfl⟩
  next => exact ⟨.positive, roundWithAccuracy_plain .., fun _ => rfl⟩

theorem normalize_notNegative {mantissa : Int} (above : 0 ≤ mantissa) (exponent : Int) :
    notNegative (UnpackedFloat.normalize .binary64 mantissa exponent .positive) = true := by
  obtain ⟨sign, plain, positive⟩ := normalize_plain mantissa exponent
  exact (positive above ▸ plain).notNegative

theorem IsPlain.isNaN {sign : Sign} {value : UnpackedFloat} (plain : IsPlain sign value) :
    value.isNaN = false := by
  rcases plain with rfl | ⟨_, _, _, rfl⟩
  · rfl
  · rfl

theorem isNaN_parts_add {left right : UnpackedFloat} (number : left.isNaN = false)
    (finite : right.isFinite = true) : (UnpackedFloat.add .binary64 left right).isNaN = false := by
  cases right with
  | notANumber | infinity => cases finite
  | zero sign' =>
    cases left with
    | notANumber => cases number
    | infinity | finite => rfl
    | zero sign =>
      simp only [UnpackedFloat.add]
      split <;> rfl
  | finite sign' mantissa' exponent' _ =>
    cases left with
    | notANumber => cases number
    | infinity | zero => rfl
    | finite sign mantissa exponent _ =>
      obtain ⟨sign, plain, -⟩ := normalize_plain _ _
      exact plain.isNaN

theorem parts_add_comm (left right : UnpackedFloat) :
    UnpackedFloat.add .binary64 left right = UnpackedFloat.add .binary64 right left := by
  rcases left with (_ | _) | _ | (_ | _) | ⟨sign, mantissa, exponent, _⟩ <;>
    rcases right with (_ | _) | _ | (_ | _) | ⟨sign', mantissa', exponent', _⟩
  case finite.finite =>
    simp only [UnpackedFloat.add, min_comm exponent]
    rw [Int.add_comm]
  all_goals rfl

theorem notNegative_cases {value : UnpackedFloat} (above : notNegative value = true) :
    value = .infinity .positive ∨ (∃ sign, value = .zero sign) ∨
      ∃ mantissa exponent positive, value = .finite .positive mantissa exponent positive := by
  rcases value with (_ | _) | _ | sign | ⟨_ | _, mantissa, exponent, positive⟩
  case infinity.negative | notANumber | finite.negative => cases above
  case infinity.positive => exact .inl rfl
  case zero => exact .inr (.inl ⟨sign, rfl⟩)
  case finite.positive => exact .inr (.inr ⟨mantissa, exponent, positive, rfl⟩)

theorem notNegative_add {left right : UnpackedFloat} (left_above : notNegative left = true)
    (right_above : notNegative right = true) :
    notNegative (UnpackedFloat.add .binary64 left right) = true := by
  rcases notNegative_cases left_above with rfl | ⟨sign, rfl⟩ | ⟨mantissa, exponent, _, rfl⟩
  · rcases notNegative_cases right_above with rfl | ⟨_, rfl⟩ | ⟨_, _, _, rfl⟩ <;> rfl
  · rcases notNegative_cases right_above with rfl | ⟨sign', rfl⟩ | ⟨_, _, _, rfl⟩
    · rfl
    · simp only [UnpackedFloat.add]
      split <;> rfl
    · rfl
  · rcases notNegative_cases right_above with rfl | ⟨_, rfl⟩ | ⟨mantissa', exponent', _, rfl⟩
    · rfl
    · rfl
    · apply normalize_notNegative
      exact Int.add_nonneg (Int.natCast_nonneg _) (Int.natCast_nonneg _)

theorem isNaN_add {x y : Float} (number : x.isNaN = false) (finite : y.isFinite = true) :
    (x + y).isNaN = false :=
  (isNaN_repack _).trans (isNaN_parts_add number finite)

protected theorem add_comm (x y : Float) : x + y = y + x :=
  congrArg (fun value => Float.ofModel (.pack value)) (parts_add_comm (parts x) (parts y))

theorem isNaN_of_isFinite {x : Float} (finite : x.isFinite = true) : x.isNaN = false := by
  change (parts x).isNaN = false
  change (parts x).isFinite = true at finite
  cases shape : parts x with
  | notANumber =>
    rw [shape] at finite
    cases finite
  | infinity | zero | finite => rfl

theorem zero_le_add {x y : Float} (left : 0.0 ≤ x) (right : 0.0 ≤ y) : 0.0 ≤ x + y := by
  rw [zero_le_iff] at left right ⊢
  exact notNegative_repack (notNegative_add left right)

theorem isNaN_div {x y : Float} (number : x.isNaN = false) (finite : y.isFinite = true)
    (positive : 0.0 < y) : (x / y).isNaN = false := by
  refine (isNaN_repack _).trans ?_
  have not_zero (sign : Sign) : parts y ≠ .zero sign := by
    intro zero
    have level : rank y = rank 0.0 := by
      rw [rank, zero]
      rfl
    obtain ⟨low, high, ranked, ranked', below⟩ := lt_iff.1 positive
    rw [level, ranked] at ranked'
    exact below.ne (Option.some.inj ranked')
  change (UnpackedFloat.div .binary64 (parts x) (parts y)).isNaN = false
  change (parts x).isNaN = false at number
  change (parts y).isFinite = true at finite
  cases divisor : parts y with
  | notANumber | infinity =>
    rw [divisor] at finite
    cases finite
  | zero sign => exact absurd divisor (not_zero sign)
  | finite sign' mantissa' exponent' _ =>
    cases dividend : parts x with
    | notANumber =>
      rw [dividend] at number
      cases number
    | infinity | zero => rfl
    | finite sign mantissa exponent _ => exact (roundWithAccuracy_plain ..).isNaN

theorem ofNatural_finite (n : Nat) : (ofNatural n).isFinite = true :=
  (ofNatural_rounds n).2

theorem zero_le_ofNatural (n : Nat) : 0.0 ≤ ofNatural n := by
  rw [zero_le_iff]
  exact notNegative_repack (normalize_notNegative (Int.natCast_nonneg _) 0)

theorem neg_finite {x : Float} (finite : x.isFinite = true) : (-x).isFinite = true := by
  change (parts (-x)).isFinite = true
  rw [parts_neg]
  change (parts x).isFinite = true at finite
  generalize parts x = value at finite
  cases value <;> first | rfl | cases finite

theorem ofInteger_finite (n : Int) : (ofInteger n).isFinite = true := by
  rw [ofInteger]
  split
  · exact neg_finite (ofNatural_finite _)
  · exact ofNatural_finite _

theorem multiplier_number (percent : Int) : (1.0 + ofInteger percent / 100.0).isNaN = false := by
  have part : (ofInteger percent / 100.0).isNaN = false :=
    isNaN_div (isNaN_of_isFinite (ofInteger_finite percent)) (by decide) (by decide)
  rw [Number.add_comm]
  exact isNaN_add part (by decide)

end Spellcraft.Number
