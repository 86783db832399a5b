import Spellcraft.Number.Bounds
import Spellcraft.Proofs.Number.Sign
import Spellcraft.Proofs.Number.Value

set_option autoImplicit false

namespace Spellcraft.Number

open Float.Model (UnpackedFloat Format)
open Float.Model.UnpackedFloat

section Signs

variable {x y : Float}

theorem partsExtent_neg (value : UnpackedFloat) : partsExtent value.neg = -partsExtent value := by
  rcases value with (_ | _) | _ | _ | ⟨_ | _, mantissa, exponent, positive⟩ <;>
    simp [UnpackedFloat.neg, partsExtent, partsRat]

theorem extent_neg (x : Float) : extent (-x) = -extent x := by
  rw [extent, parts_neg, partsExtent_neg]
  rfl

theorem isNaN_neg (x : Float) : (-x).isNaN = x.isNaN := by
  change (parts (-x)).isNaN = (parts x).isNaN
  rw [parts_neg]
  cases parts x <;> rfl

theorem zero_lt_iff : 0.0 < x ↔ x.isNaN = false ∧ 0 < extent x := by
  have zero : extent 0.0 = 0 := rfl
  constructor
  · intro positive
    exact ⟨(number_of_le (le_of_lt positive)).2, zero ▸ extent_lt positive⟩
  · rintro ⟨number, positive⟩
    exact lt_of_extent (by decide) number (zero ▸ positive)

end Signs

section Limits

variable {x y : Float}

def AboveLeast (x : Float) : Prop :=
  x.isNaN = false ∧ -limit < extent x

theorem AboveLeast.shape (above : AboveLeast x) :
    parts x = .infinity .positive ∨ (parts x).isFinite = true := by
  obtain ⟨number, low⟩ := above
  change (parts x).isNaN = false at number
  rw [extent] at low
  generalize parts x = value at number low
  rcases value with (_ | _) | _ | _ | ⟨sign, mantissa, exponent, positive⟩
  case infinity.negative => exact absurd low (not_lt.2 le_rfl)
  case infinity.positive => exact .inl rfl
  case notANumber => cases number
  case zero | finite => exact .inr rfl

theorem AboveLeast.of_le (above : AboveLeast x) (below : x ≤ y) : AboveLeast y :=
  ⟨(number_of_le below).2, above.2.trans_le (extent_le below)⟩

theorem aboveLeast_of_pos (positive : 0.0 < x) : AboveLeast x := by
  obtain ⟨number, positive⟩ := zero_lt_iff.1 positive
  exact ⟨number, (neg_neg_of_pos limit_pos).trans positive⟩

theorem abs_toRat_lt (x : Float) : |toRat x| < limit := by
  have stored := parts_stored x
  rw [toRat]
  cases shape : parts x with
  | notANumber | infinity | zero => simpa [partsRat] using limit_pos
  | finite sign mantissa exponent positive =>
    rw [shape] at stored
    rw [partsRat_finite, abs_signed, abs_of_pos (by positivity)]
    exact Stored.lt_limit stored

theorem aboveLeast_of_isFinite (finite : x.isFinite = true) : AboveLeast x :=
  ⟨isNaN_of_isFinite finite, extent_of_finite finite ▸ (abs_lt.1 (abs_toRat_lt x)).1⟩

theorem extent_le_limit (x : Float) : extent x ≤ limit := by
  have inside := (abs_lt.1 (abs_toRat_lt x)).2
  have far := limit_pos
  rw [toRat] at inside
  rw [extent]
  generalize parts x = value at inside
  rcases value with (_ | _) | _ | _ | ⟨sign, mantissa, exponent, positive⟩
  case infinity.negative => exact (neg_neg_of_pos far).le.trans far.le
  case infinity.positive => exact le_rfl
  all_goals exact inside.le

theorem number_of_greatest (greatest : parts y = .infinity .positive) : y.isNaN = false := by
  change (parts y).isNaN = false
  rw [greatest]
  rfl

theorem le_greatest (number : x.isNaN = false) (greatest : parts y = .infinity .positive) :
    x ≤ y := by
  refine le_of_extent number (number_of_greatest greatest) ((extent_le_limit x).trans_eq ?_)
  rw [extent, greatest]
  rfl

theorem isFinite_of_le (above : AboveLeast x) (below : x ≤ y) (finite : y.isFinite = true) :
    x.isFinite = true := by
  refine above.shape.resolve_left fun greatest => ?_
  have higher := extent_le below
  rw [extent_of_finite finite, extent, greatest] at higher
  exact absurd higher (abs_lt.1 (abs_toRat_lt y)).2.not_ge

theorem aboveLeast_cases (x : Float) :
    AboveLeast x ∨ parts x = .notANumber ∨ parts x = .infinity .negative := by
  cases shape : parts x with
  | notANumber => exact .inr (.inl rfl)
  | infinity sign =>
    cases sign with
    | negative => exact .inr (.inr rfl)
    | positive =>
      have far : extent x = limit := by
        rw [extent, shape]
        rfl
      exact .inl ⟨number_of_greatest shape, (neg_lt_self limit_pos).trans_eq far.symm⟩
  | zero | finite =>
    have finite : (parts x).isFinite = true := by
      rw [shape]
      rfl
    exact .inl (aboveLeast_of_isFinite finite)

end Limits

section Sums

variable {x y z : Float}

theorem add_greatest (greatest : parts x = .infinity .positive) (above : AboveLeast y) :
    parts (x + y) = .infinity .positive := by
  have sum : UnpackedFloat.add .binary64 (parts x) (parts y) = .infinity .positive := by
    rw [greatest]
    rcases above.shape with shape | finite
    · rw [shape]
      rfl
    · rcases finite_cases finite with ⟨_, shape⟩ | ⟨_, _, _, _, shape⟩ <;> rw [shape] <;> rfl
  exact congrArg repack sum

theorem add_cases (above : AboveLeast x) (above' : AboveLeast y) :
    x.isFinite = true ∧ y.isFinite = true ∨ parts (x + y) = .infinity .positive := by
  rcases above.shape with greatest | finite
  · exact .inr (add_greatest greatest above')
  · rcases above'.shape with greatest | finite'
    · exact .inr (Number.add_comm x y ▸ add_greatest greatest above)
    · exact .inl ⟨finite, finite'⟩

theorem add_number (above : AboveLeast x) (above' : AboveLeast y) : (x + y).isNaN = false := by
  rcases add_cases above above' with ⟨finite, finite'⟩ | greatest
  · exact (approximates_add finite finite').number
  · exact number_of_greatest greatest

theorem add_le_add_right (above : AboveLeast x) (above' : AboveLeast z) (below : x ≤ y) :
    x + z ≤ y + z := by
  rcases add_cases (above.of_le below) above' with ⟨finite, finite'⟩ | greatest
  · have lower := isFinite_of_le above below finite
    refine (approximates_add lower finite').le (approximates_add finite finite') ?_
    rw [← extent_of_finite lower, ← extent_of_finite finite]
    exact add_le_add (extent_le below) le_rfl
  · exact le_greatest (add_number above above') greatest

theorem sub_le_sub_right (positive : 0.0 < x) (finite : z.isFinite = true) (below : x ≤ y) :
    x - z ≤ y - z := by
  rw [Number.sub_eq_add_neg, Number.sub_eq_add_neg]
  exact add_le_add_right (aboveLeast_of_pos positive) (aboveLeast_of_isFinite (neg_finite finite))
    below

theorem aboveLeast_of_add (positive : 0.0 < x + y) : AboveLeast x := by
  refine (aboveLeast_cases x).resolve_right fun low => ?_
  have sum : UnpackedFloat.add .binary64 (parts x) (parts y) = .notANumber ∨
      UnpackedFloat.add .binary64 (parts x) (parts y) = .infinity .negative := by
    rcases low with shape | shape
    · rw [shape]
      exact .inl (by cases parts y <;> rfl)
    · rw [shape]
      rcases parts y with (_ | _) | _ | _ | _
      case infinity.positive | notANumber => exact .inl rfl
      case infinity.negative | zero | finite => exact .inr rfl
  have above : 0 < partsExtent (repack (UnpackedFloat.add .binary64 (parts x) (parts y))) :=
    (zero_lt_iff.1 positive).2
  rcases sum with none | least
  · rw [none] at above
    exact absurd above (lt_self_iff_false _).1
  · rw [least] at above
    exact absurd above (neg_neg_of_pos limit_pos).not_gt

end Sums

section Products

variable {x y z : Float}

theorem pos_shape (positive : 0.0 < x) :
    parts x = .infinity .positive ∨
      ∃ mantissa exponent some, parts x = .finite .positive mantissa exponent some := by
  obtain ⟨-, above⟩ := zero_lt_iff.1 positive
  rw [extent] at above
  rcases (aboveLeast_of_pos positive).shape with greatest | finite
  · exact .inl greatest
  · rcases finite_cases finite with ⟨sign, shape⟩ | ⟨_ | _, mantissa, exponent, some, shape⟩
    · rw [shape] at above
      exact absurd above (lt_self_iff_false _).1
    · rw [shape] at above
      have size_pos : (0 : ℚ) < mantissa * 2 ^ exponent := by positivity
      exact absurd above (neg_neg_of_pos size_pos).not_gt
    · exact .inr ⟨mantissa, exponent, some, shape⟩

theorem mul_greatest (greatest : parts x = .infinity .positive) (positive : 0.0 < y) :
    parts (x * y) = .infinity .positive := by
  have product : UnpackedFloat.mul .binary64 (parts x) (parts y) = .infinity .positive := by
    rw [greatest]
    rcases pos_shape positive with shape | ⟨_, _, _, shape⟩ <;> rw [shape] <;> rfl
  exact congrArg repack product

theorem mul_cases (positive : 0.0 < x) (positive' : 0.0 < y) :
    x.isFinite = true ∧ y.isFinite = true ∨ parts (x * y) = .infinity .positive := by
  rcases (aboveLeast_of_pos positive).shape with greatest | finite
  · exact .inr (mul_greatest greatest positive')
  · rcases (aboveLeast_of_pos positive').shape with greatest | finite'
    · exact .inr (Number.mul_comm x y ▸ mul_greatest greatest positive)
    · exact .inl ⟨finite, finite'⟩

theorem mul_number (positive : 0.0 < x) (positive' : 0.0 < y) : (x * y).isNaN = false := by
  rcases mul_cases positive positive' with ⟨finite, finite'⟩ | greatest
  · exact (approximates_mul finite finite').number
  · exact number_of_greatest greatest

theorem mul_le_mul_right (positive : 0.0 < x) (positive' : 0.0 < z) (below : x ≤ y) :
    x * z ≤ y * z := by
  have positive_y : 0.0 < y := lt_of_lt_of_le positive below
  rcases mul_cases positive_y positive' with ⟨finite, finite'⟩ | greatest
  · have lower := isFinite_of_le (aboveLeast_of_pos positive) below finite
    refine (approximates_mul lower finite').le (approximates_mul finite finite') ?_
    rw [← extent_of_finite lower, ← extent_of_finite finite, ← extent_of_finite finite']
    exact mul_le_mul_of_nonneg_right (extent_le below) (zero_lt_iff.1 positive').2.le
  · exact le_greatest (mul_number positive positive') greatest

theorem sign_cases (x : Float) :
    0.0 < x ∨ 0.0 < -x ∨ parts x = .notANumber ∨ ∃ sign, parts x = .zero sign := by
  cases shape : parts x with
  | notANumber => exact .inr (.inr (.inl rfl))
  | zero sign => exact .inr (.inr (.inr ⟨sign, rfl⟩))
  | infinity sign =>
    have number : x.isNaN = false := by
      change (parts x).isNaN = false
      rw [shape]
      rfl
    have far := limit_pos
    cases sign with
    | negative =>
      refine .inr (.inl (zero_lt_iff.2 ⟨(isNaN_neg x).trans number, ?_⟩))
      rwa [extent_neg, extent, shape, partsExtent, neg_neg]
    | positive =>
      refine .inl (zero_lt_iff.2 ⟨number, ?_⟩)
      rwa [extent, shape, partsExtent]
  | finite sign mantissa exponent some =>
    have finite : x.isFinite = true := by
      change (parts x).isFinite = true
      rw [shape]
      rfl
    have number := isNaN_of_isFinite finite
    have size_pos : (0 : ℚ) < mantissa * 2 ^ exponent := by positivity
    cases sign with
    | negative =>
      refine .inr (.inl (zero_lt_iff.2 ⟨(isNaN_neg x).trans number, ?_⟩))
      rwa [extent_neg, extent_of_finite finite, toRat, shape, partsRat, neg_neg]
    | positive =>
      refine .inl (zero_lt_iff.2 ⟨number, ?_⟩)
      rwa [extent_of_finite finite, toRat, shape, partsRat]

theorem mul_not_positive (idle : parts x = .notANumber ∨ ∃ sign, parts x = .zero sign) :
    ¬ 0.0 < x * y := by
  have product : UnpackedFloat.mul .binary64 (parts x) (parts y) = .notANumber ∨
      ∃ sign, UnpackedFloat.mul .binary64 (parts x) (parts y) = .zero sign := by
    rcases idle with shape | ⟨sign, shape⟩
    · rw [shape]
      exact .inl (by cases parts y <;> rfl)
    · rw [shape]
      cases parts y with
      | notANumber | infinity => exact .inl rfl
      | zero | finite => exact .inr ⟨_, rfl⟩
  intro positive
  have above : 0 < partsExtent (repack (UnpackedFloat.mul .binary64 (parts x) (parts y))) :=
    (zero_lt_iff.1 positive).2
  rcases product with none | ⟨sign, zero⟩
  · rw [none] at above
    exact absurd above (lt_self_iff_false _).1
  · rw [zero] at above
    exact absurd above (by cases sign <;> exact (lt_self_iff_false _).1)

theorem zero_le_mul (positive : 0.0 < x) (positive' : 0.0 < y) : 0 ≤ extent (x * y) := by
  rcases mul_cases positive positive' with ⟨finite, finite'⟩ | greatest
  · have zero : Approximates 0.0 0 := approximates_of_rounds le_rfl (rounds_zero .positive)
    have above : 0 ≤ toRat x * toRat y := by
      rw [← extent_of_finite finite, ← extent_of_finite finite']
      exact mul_nonneg (zero_lt_iff.1 positive).2.le (zero_lt_iff.1 positive').2.le
    exact extent_le (zero.le (approximates_mul finite finite') above)
  · rw [extent, greatest]
    exact limit_pos.le

theorem mul_pos_cases (positive : 0.0 < x * y) : 0.0 < x ∧ 0.0 < y ∨ 0.0 < -x ∧ 0.0 < -y := by
  have mixed {x y : Float} (above : 0.0 < x) (below : 0.0 < -y) : ¬ 0.0 < x * y := by
    intro positive
    have lower := zero_le_mul above below
    rw [Number.mul_neg, extent_neg] at lower
    exact absurd (zero_lt_iff.1 positive).2 (not_lt.2 (neg_nonneg.1 lower))
  rcases sign_cases x with left | left | idle
  · rcases sign_cases y with right | right | idle
    · exact .inl ⟨left, right⟩
    · exact absurd positive (mixed left right)
    · exact absurd (Number.mul_comm x y ▸ positive) (mul_not_positive idle)
  · rcases sign_cases y with right | right | idle
    · exact absurd (Number.mul_comm x y ▸ positive) (mixed right left)
    · exact .inr ⟨left, right⟩
    · exact absurd (Number.mul_comm x y ▸ positive) (mul_not_positive idle)
  · exact absurd positive (mul_not_positive idle)

theorem pos_of_mul_greatest (greatest : parts x = .infinity .positive)
    (above : AboveLeast (x * y)) : 0.0 < y := by
  obtain ⟨number, low⟩ := above
  change (repack (UnpackedFloat.mul .binary64 (parts x) (parts y))).isNaN = false at number
  rcases sign_cases y with positive | negative | none | ⟨sign, zero⟩
  · exact positive
  · have turned : extent (x * -y) = limit := by
      rw [extent, mul_greatest greatest negative]
      rfl
    rw [Number.mul_neg, extent_neg] at turned
    linarith
  · rw [greatest, none] at number
    cases number
  · have product : UnpackedFloat.mul .binary64 (parts x) (parts y) = .notANumber := by
      rw [greatest, zero]
      rfl
    rw [product] at number
    cases number

theorem mul_le_mul_left (scale : 0.0 ≤ z) (finite : x.isFinite = true) (finite' : y.isFinite = true)
    (below : x ≤ y) (above : AboveLeast (z * x)) : z * x ≤ z * y := by
  have sign : 0 ≤ extent z := extent_le scale
  have above_z : AboveLeast z := ⟨(number_of_le scale).2, (neg_neg_of_pos limit_pos).trans_le sign⟩
  rcases above_z.shape with greatest | finite_z
  · have positive := pos_of_mul_greatest greatest above
    exact le_greatest above.1 (mul_greatest greatest (lt_of_lt_of_le positive below))
  · refine (approximates_mul finite_z finite).le (approximates_mul finite_z finite') ?_
    rw [extent_of_finite finite_z] at sign
    rw [← extent_of_finite finite, ← extent_of_finite finite']
    exact mul_le_mul_of_nonneg_left (extent_le below) sign

end Products

section Wholes

variable {x y : Float}

theorem roundToInt_toNat (sign : Sign) (mantissa : Nat) (exponent : Int) :
    (UnpackedFloat.roundToInt sign mantissa exponent).toNat =
      ⌊signed sign (mantissa * 2 ^ exponent)⌋₊ := by
  let widened := mantissa <<< (exponent - 0).toNat
  let place := exponent - (exponent - 0).toNat
  let last := ExtendedMantissa.ofMantissaAndAccuracy widened .exact >>> (0 - place).toNat
  change (sign.apply last.mantissa).toNat = _
  cases sign with
  | negative =>
    have below : signed .negative (mantissa * 2 ^ exponent) ≤ 0 := neg_nonpos.2 (by positivity)
    rw [Nat.floor_of_nonpos below]
    exact Int.toNat_of_nonpos (Int.neg_nonpos_of_nonneg (Int.natCast_nonneg _))
  | positive =>
    have first : Stands (ExtendedMantissa.ofMantissaAndAccuracy widened .exact).accuracy
        (ExtendedMantissa.ofMantissaAndAccuracy widened .exact).mantissa widened :=
      (rfl : (widened : ℚ) = widened)
    have stands := shiftRight_stands first (0 - place).toNat
    have arrives : exponent = ((exponent - 0).toNat : Int) - (0 - place).toNat := by omega
    have power : (2 : ℚ) ^ exponent = 2 ^ (exponent - 0).toNat / 2 ^ (0 - place).toNat := by
      rw [← zpow_natCast, ← zpow_natCast, ← zpow_sub₀ two_ne_zero]
      exact congrArg _ arrives
    have wide : (widened : ℚ) = mantissa * 2 ^ (exponent - 0).toNat := by
      exact_mod_cast Nat.shiftLeft_eq ..
    have moved : (widened : ℚ) / 2 ^ (0 - place).toNat = mantissa * 2 ^ exponent := by
      rw [wide, power, mul_div_assoc]
    rw [moved] at stands
    exact ((Nat.floor_eq_iff (by positivity)).2 ⟨stands.le, stands.lt⟩).symm

theorem toUInt64_toNat (x : Float) : x.toUInt64.toNat = min ⌊extent x⌋₊ 0xFFFFFFFFFFFFFFFF := by
  have clamped (n : Nat) : (UInt64.ofNatClamp n).toNat = min n 0xFFFFFFFFFFFFFFFF := by
    rw [UInt64.ofNatClamp]
    split
    next fits => exact (min_eq_left (Nat.le_of_lt_succ fits)).symm
    next beyond =>
      have most : 0xFFFFFFFFFFFFFFFF ≤ n := Nat.le_of_lt (not_lt.1 beyond)
      exact (min_eq_right most).symm
  change (UInt64.ofNatClamp ((parts x).toInt 0 (UInt64.size - 1)).toNat).toNat = _
  rw [clamped, extent]
  rcases parts x with (_ | _) | _ | _ | ⟨sign, mantissa, exponent, positive⟩
  case infinity.negative =>
    have below : partsExtent (.infinity .negative) ≤ 0 := neg_nonpos.2 limit_pos.le
    rw [Nat.floor_of_nonpos below]
    rfl
  case infinity.positive =>
    have beyond : 0xFFFFFFFFFFFFFFFF ≤ ⌊partsExtent (.infinity .positive)⌋₊ := by
      apply Nat.le_floor
      change _ ≤ limit
      rw [limit]
      calc ((0xFFFFFFFFFFFFFFFF : Nat) : ℚ) ≤ 2 ^ (64 : Int) := by norm_num
        _ ≤ 2 ^ (1024 : Int) := zpow_le_zpow_right₀ (by norm_num) (by norm_num)
    rw [min_eq_right beyond]
    rfl
  case notANumber | zero => exact congrArg (min · _) Nat.floor_zero.symm
  case finite =>
    change min (UnpackedFloat.roundToInt sign mantissa exponent).toNat _ = _
    rw [roundToInt_toNat, ← partsRat_finite sign mantissa exponent positive]
    rfl

theorem toUInt64_le (below : x ≤ y) : x.toUInt64 ≤ y.toUInt64 := by
  rw [UInt64.le_iff_toNat_le, toUInt64_toNat, toUInt64_toNat]
  exact min_le_min (Nat.floor_mono (extent_le below)) le_rfl

theorem wholeAbove_toNat (x : Float) :
    (wholeAbove x).toNat = x.toUInt64.toNat +
      if x.toUInt64.toFloat < x ∧ x.toUInt64 < 0xFFFFFFFFFFFFFFFF then 1 else 0 := by
  simp only [wholeAbove]
  split
  next raised =>
    have room : x.toUInt64.toNat < 0xFFFFFFFFFFFFFFFF := UInt64.lt_iff_toNat_lt.1 raised.2
    rw [UInt64.toNat_add, UInt64.toNat_one]
    omega
  next => rfl

-- Of two doubles over the same whole number, the greater one is rounded up if the other one is.
theorem wholeAbove_le (below : x ≤ y) : wholeAbove x ≤ wholeAbove y := by
  have wholes := UInt64.le_iff_toNat_le.1 (toUInt64_le below)
  rw [UInt64.le_iff_toNat_le, wholeAbove_toNat, wholeAbove_toNat]
  by_cases same : x.toUInt64 = y.toUInt64
  · rw [same]
    split_ifs with raised both
    · exact le_rfl
    · exact absurd ⟨lt_of_lt_of_le raised.1 below, raised.2⟩ both
    · omega
    · exact le_rfl
  · have less : x.toUInt64.toNat < y.toUInt64.toNat :=
      wholes.lt_of_ne fun equal => same (UInt64.toNat_inj.1 equal)
    split_ifs <;> omega

theorem toFloat_le {n m : UInt64} (fewer : n ≤ m) : n.toFloat ≤ m.toFloat := by
  have approximates (n : UInt64) : Approximates n.toFloat n.toNat := by
    have rounds := (ofNatural_rounds n.toNat).1
    rw [ofNatural, Nat.toUInt64, UInt64.ofNat_toNat] at rounds
    exact approximates_of_rounds (by positivity) rounds
  exact (approximates n).le (approximates m) (by exact_mod_cast UInt64.le_iff_toNat_le.1 fewer)

theorem toFloat_toUInt64 (n : UInt32) : n.toUInt64.toFloat = n.toFloat := rfl

theorem toFloat_not_negative (n : UInt64) : ¬ 0.0 < -n.toFloat := by
  intro negative
  have above : extent (0 : UInt64).toFloat ≤ extent n.toFloat := extent_le (toFloat_le n.zero_le)
  have below := (zero_lt_iff.1 negative).2
  rw [extent_neg] at below
  exact absurd above (neg_pos.1 below).not_ge

end Wholes

end Spellcraft.Number
