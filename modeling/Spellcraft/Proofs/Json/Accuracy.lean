import Spellcraft.Proofs.Json.Rereading
import Spellcraft.Proofs.Number.Value

set_option autoImplicit false

namespace Spellcraft

open Number
open Float.Model (UnpackedFloat)

namespace Json

section Errors

variable {q p s d r share amount least : ℚ}

theorem product_near (above : 0 ≤ q) (above' : 0 ≤ p)
    (left : |s - q| ≤ 7 / 5 / 2 ^ 53 * q) (right : |d - p| ≤ 7 / 5 / 2 ^ 53 * p)
    (rounded : |r - s * d| ≤ s * d / 2 ^ 53 + least) :
    |r - q * p| ≤ 4 / 2 ^ 53 * (q * p) + least := by
  have positive : 0 ≤ q * p := mul_nonneg above above'
  have most : |d| ≤ (1 + 7 / 5 / 2 ^ 53) * p := by
    have := abs_sub_abs_le_abs_sub d p
    rw [abs_of_nonneg above'] at this
    linarith
  have moved : |s * d - q * p| ≤ 29 / 10 / 2 ^ 53 * (q * p) :=
    calc |s * d - q * p| = |(s - q) * d + q * (d - p)| := by congr 1; ring
      _ ≤ |s - q| * |d| + q * |d - p| := by
        rw [← abs_mul, ← abs_of_nonneg above, ← abs_mul, abs_of_nonneg above]
        exact abs_add_le _ _
      _ ≤ 7 / 5 / 2 ^ 53 * q * ((1 + 7 / 5 / 2 ^ 53) * p) + q * (7 / 5 / 2 ^ 53 * p) := by
        gcongr
      _ ≤ 29 / 10 / 2 ^ 53 * (q * p) := by nlinarith
  have most := (abs_le.1 moved).2
  calc |r - q * p| ≤ |r - s * d| + |s * d - q * p| := abs_sub_le ..
    _ ≤ 4 / 2 ^ 53 * (q * p) + least := by linarith

theorem quotient_near (above : 0 ≤ q) (some : 0 < p) (one : 1 ≤ d) (none : 0 ≤ amount)
    (few : 0 ≤ share ∧ share ≤ 8 / 2 ^ 53) (left : |s - q| ≤ share * q + amount)
    (right : |d - p| ≤ 7 / 5 / 2 ^ 53 * p) (rounded : |r - s / d| ≤ s / d / 2 ^ 53 + least) :
    |r - q / p| ≤ (share + 5 / 2 / 2 ^ 53) * (q / p) + (3 / 2 * amount + least) := by
  obtain ⟨whole, exact⟩ : ∃ whole, q / p = whole := ⟨_, rfl⟩
  obtain ⟨told, computed⟩ : ∃ told, s / d = told := ⟨_, rfl⟩
  have positive : 0 ≤ whole := exact ▸ div_nonneg above some.le
  rw [exact]
  rw [computed] at rounded
  have step : 0 < d := zero_lt_one.trans_le one
  obtain rfl : q = whole * p := (div_eq_iff some.ne').1 exact
  obtain rfl : s = told * d := (div_eq_iff step.ne').1 computed
  have less : p ≤ (1 + 3 / 2 ^ 53) * d := by linarith [(abs_le.1 right).1]
  have shared : share * whole ≤ 8 / 2 ^ 53 * whole := mul_le_mul_of_nonneg_right few.2 positive
  have moved : |told - whole| ≤ (share + 7 / 5 / 2 ^ 53) * (1 + 3 / 2 ^ 53) * whole + amount := by
    refine le_of_mul_le_mul_right ?_ step
    calc |told - whole| * d = |(told - whole) * d| := by rw [abs_mul, abs_of_pos step]
      _ = |(told * d - whole * p) + whole * (p - d)| := by congr 1; ring
      _ ≤ |told * d - whole * p| + whole * |d - p| := by
        refine (abs_add_le _ _).trans ?_
        rw [abs_mul, abs_of_nonneg positive, abs_sub_comm p d]
      _ ≤ share * (whole * p) + amount + whole * (7 / 5 / 2 ^ 53 * p) := by gcongr
      _ = (share + 7 / 5 / 2 ^ 53) * whole * p + amount * 1 := by ring
      _ ≤ (share + 7 / 5 / 2 ^ 53) * whole * ((1 + 3 / 2 ^ 53) * d) + amount * d := by
        have := few.1
        gcongr
      _ = ((share + 7 / 5 / 2 ^ 53) * (1 + 3 / 2 ^ 53) * whole + amount) * d := by ring
  have most := (abs_le.1 moved).2
  calc |r - whole| ≤ |r - told| + |told - whole| := abs_sub_le ..
    _ ≤ (share + 5 / 2 / 2 ^ 53) * whole + (3 / 2 * amount + least) := by linarith

end Errors

section Scaling

variable {x y : Float} {d : Decimal}

theorem beq_zero_of_nears {q : ℚ} (nears : Nears x q) : (x == 0.0) = false := by
  obtain ⟨mantissa, exponent, positive, shape, -⟩ := nears.shape
  change (parts x).beq (parts 0.0) = false
  rw [shape]
  rfl

theorem scale?_cases {exponent : Int} {q : ℚ} (nears : Nears x q) (low : -616 ≤ exponent)
    (scaled : scale? 4 x exponent = some y) :
    (∃ k : Nat, k ≤ 308 ∧ exponent = k ∧ y = x * powerOfTen k) ∨
      (∃ k : Nat, k ≤ 308 ∧ exponent = -k ∧ y = x / powerOfTen k) ∨
      ∃ k : Nat, k ≤ 308 ∧ exponent = -308 - k ∧ y = x / powerOfTen 308 / powerOfTen k := by
  rw [scale?] at scaled
  split at scaled
  next few =>
    split at scaled
    next below =>
      cases scaled
      exact .inr (.inl ⟨_, few, by omega, rfl⟩)
    next above =>
      dsimp only at scaled
      split at scaled
      · cases scaled
      · cases scaled
        exact .inl ⟨_, few, by omega, rfl⟩
  next many =>
    rw [beq_zero_of_nears nears] at scaled
    simp only [Bool.false_eq_true, if_false] at scaled
    split at scaled
    next above => cases scaled
    next below =>
      have few : (exponent + 308).natAbs ≤ 308 := by omega
      rw [scale?, if_pos few, if_pos (by omega)] at scaled
      cases scaled
      exact .inr (.inr ⟨_, few, by omega, rfl⟩)

theorem divided_near {k : Nat} {q p share amount : ℚ} (few : k ≤ 308) (above : 0 ≤ q)
    (none : 0 ≤ amount) (small : 0 ≤ share ∧ share ≤ 8 / 2 ^ 53)
    (rounds : Rounds .positive p (parts x)) (near : |size (parts x) - q| ≤ share * q + amount) :
    toRat (x / powerOfTen k) = size (parts (x / powerOfTen k)) ∧
      |size (parts (x / powerOfTen k)) - q / 10 ^ k| ≤
        (share + 5 / 2 / 2 ^ 53) * (q / 10 ^ k) + (3 / 2 * amount + 2 ^ (-1075 : Int)) := by
  have power := powerOfTen_nears few
  have quotient := rounds.div power
  refine ⟨quotient.partsRat, ?_⟩
  exact quotient_near above (by positivity) power.one_le none small near power.near
    (quotient.size_near (div_nonneg (size_nonneg _) (size_nonneg _)))

theorem scale?_near (positive : 0 < d.digits) (fits : d.digits < 2 ^ 64) (low : -616 ≤ d.exponent)
    (scaled : scale? 4 (ofNatural d.digits) d.exponent = some y) (finite : y.isFinite = true) :
    toRat y = size (parts y) ∧
      |size (parts y) - d.value| ≤ 32 / 5 / 2 ^ 53 * d.value + 5 / 2 * 2 ^ (-1075 : Int) := by
  have nears := ofNatural_nears positive fits
  have above : (0 : ℚ) ≤ d.digits := by positivity
  have whole : 0 ≤ d.value := by
    rw [Decimal.value]
    positivity
  have least : (0 : ℚ) < 2 ^ (-1075 : Int) := by positivity
  have small : (0 : ℚ) ≤ 7 / 5 / 2 ^ 53 ∧ (7 : ℚ) / 5 / 2 ^ 53 ≤ 8 / 2 ^ 53 := by norm_num
  have start : |size (parts (ofNatural d.digits)) - d.digits| ≤ 7 / 5 / 2 ^ 53 * d.digits + 0 := by
    rw [add_zero]
    exact nears.near
  rcases scale?_cases nears low scaled with ⟨k, few, place, rfl⟩ | ⟨k, few, place, rfl⟩ |
    ⟨k, few, place, rfl⟩
  · have power := powerOfTen_nears few
    have rounds := nears.mul_of_finite power finite
    have near := product_near above (zero_le_one.trans power.one) nears.near power.near
      (rounds.size_near (mul_nonneg (size_nonneg _) (size_nonneg _)))
    have value : d.digits * 10 ^ k = d.value := by rw [Decimal.value, place, zpow_natCast]
    rw [value] at near
    exact ⟨rounds.partsRat, by linarith⟩
  · obtain ⟨unsigned, near⟩ := divided_near few above le_rfl small nears.rounds start
    have value : d.digits / 10 ^ k = d.value := by
      rw [Decimal.value, place, zpow_neg, zpow_natCast, div_eq_mul_inv]
    rw [value] at near
    exact ⟨unsigned, by linarith⟩
  · obtain ⟨-, near⟩ := divided_near le_rfl above le_rfl small nears.rounds start
    have rounds := nears.rounds.div (powerOfTen_nears (le_refl 308))
    have small : (0 : ℚ) ≤ 7 / 5 / 2 ^ 53 + 5 / 2 / 2 ^ 53 ∧
        (7 : ℚ) / 5 / 2 ^ 53 + 5 / 2 / 2 ^ 53 ≤ 8 / 2 ^ 53 := by norm_num
    obtain ⟨unsigned, near⟩ := divided_near few (div_nonneg above (by positivity))
      (by linarith) small rounds near
    have value : d.digits / 10 ^ 308 / 10 ^ k = d.value := by
      have places : (-308 - k : Int) = -((308 + k : Nat) : Int) := by omega
      rw [Decimal.value, place, places, zpow_neg, zpow_natCast, pow_add, div_div, div_eq_mul_inv]
    rw [value] at near
    exact ⟨unsigned, by linarith⟩

end Scaling

-- Below that even the most digits stay under half of the least double.
theorem le_exponent {b : Binary} {d : Decimal} (valid : b.Valid)
    (within : Within b.mantissa b.exponent d.value) (fits : d.digits < 2 ^ 64) :
    -616 ≤ d.exponent := by
  by_contra low
  have unit : (0 : ℚ) < 2 ^ b.exponent := by positivity
  have some : (1 : ℚ) ≤ b.mantissa := by exact_mod_cast valid.positive
  have above := (le_div_iff₀ unit).1 within.1.above
  have least : (2 : ℚ) ^ (-1074 : Int) ≤ 2 ^ b.exponent :=
    zpow_le_zpow_right₀ (by norm_num) valid.stored.least
  have few : (d.digits : ℚ) ≤ 2 ^ (64 : Int) := by exact_mod_cast fits.le
  have power : (10 : ℚ) ^ d.exponent ≤ 2 ^ (-1851 : Int) :=
    calc (10 : ℚ) ^ d.exponent ≤ 10 ^ (-617 : Int) :=
          zpow_le_zpow_right₀ (by norm_num) (by omega)
      _ ≤ (2 ^ (3 : Int)) ^ (-617 : Int) := by
          rw [zpow_neg, zpow_neg]
          apply inv_anti₀ (by positivity)
          exact zpow_le_zpow_left₀ (by norm_num) (by norm_num) (by norm_num)
      _ = 2 ^ (-1851 : Int) := (zpow_mul ..).symm
  have small : d.value ≤ 2 ^ (-1787 : Int) :=
    calc d.value ≤ 2 ^ (64 : Int) * 2 ^ (-1851 : Int) := by
          rw [Decimal.value]
          gcongr
      _ = 2 ^ (-1787 : Int) := (power_add 64 (-1851)).symm
  have tiny : (2 : ℚ) ^ (-1787 : Int) ≤ 2 ^ (-1076 : Int) :=
    zpow_le_zpow_right₀ (by norm_num) (by norm_num)
  have place : (2 : ℚ) ^ (-1074 : Int) = 2 ^ (2 : Int) * 2 ^ (-1076 : Int) := by
    rw [← power_add]
    rfl
  have positive : (0 : ℚ) < 2 ^ (-1076 : Int) := by positivity
  rw [place] at least
  generalize (2 : ℚ) ^ (-1076 : Int) = quarter at least tiny positive
  norm_num at least
  nlinarith

theorem value_near {b : Binary} {d : Decimal} (valid : b.Valid)
    (within : Within b.mantissa b.exponent d.value) :
    |b.value - d.value| ≤ d.value / 2 ^ 53 + 2 ^ (-1075 : Int) := by
  have above : 0 ≤ d.value := by
    rw [Decimal.value]
    positivity
  exact (within.rounds valid.stored valid.positive .positive).size_near above

theorem shortest_near {b : Binary} {y : Float} (valid : b.Valid)
    (scaled : scale? 4 (ofNatural (b.shortest .even).spelled.digits)
      (b.shortest .even).spelled.exponent = some y) (finite : y.isFinite = true) :
    |toRat y - b.value| ≤ b.value / 2 ^ 50 + 2 ^ (-1073 : Int) := by
  obtain ⟨within, few⟩ := shortest_spec valid .even
  obtain ⟨some, fits⟩ := spelled_digits (digits_pos valid within) few
  rw [← spelled_value] at within
  obtain ⟨unsigned, near⟩ := scale?_near some fits (le_exponent valid within fits) scaled finite
  have start := value_near valid within
  have least : (0 : ℚ) < 2 ^ (-1075 : Int) := by positivity
  have place : (2 : ℚ) ^ (-1073 : Int) = 2 ^ (2 : Int) * 2 ^ (-1075 : Int) := by
    rw [← power_add]
    rfl
  rw [unsigned, place]
  generalize (2 : ℚ) ^ (-1075 : Int) = unit at near start least
  rw [abs_le] at near start ⊢
  norm_num at near start ⊢
  constructor <;> linarith

theorem readAs_near {x : Float} (finite : isFinite x = true) :
    |toRat (readAs x) - toRat x| ≤ |toRat x| / 2 ^ 50 + 2 ^ (-1073 : Int) := by
  rw [isFinite] at finite
  cases size : magnitude x with
  | infinite | notNumber =>
    rw [size] at finite
    cases finite
  | zero =>
    have same : readAs x = x :=
      (readsBack_iff.1 (readsBack_of_isBrief (by rw [isBrief, size]))).2
    rw [same, sub_self, abs_zero]
    positivity
  | finite b =>
    obtain ⟨valid, sign, positive, shape⟩ := magnitude_valid size
    obtain ⟨y, scaled, finite, read⟩ := readAs_shortest size
    have near := shortest_near valid scaled finite
    have above : 0 ≤ b.value := by
      rw [Binary.value]
      positivity
    rw [read, isNegative_finite shape]
    cases sign with
    | positive =>
      have told : toRat x = b.value := congrArg partsRat shape
      rw [told, abs_of_nonneg above]
      exact near
    | negative =>
      have told : toRat x = -b.value := congrArg partsRat shape
      change |toRat (-y) - _| ≤ _
      rw [toRat_neg, told, abs_neg, abs_of_nonneg above, neg_sub_neg, abs_sub_comm]
      exact near

end Json

end Spellcraft
