import Spellcraft.Number.Binary
import Spellcraft.Proofs.Number.Sum

set_option autoImplicit false

namespace Spellcraft.Number

open Float.Model (UnpackedFloat Format)
open Float.Model.UnpackedFloat

theorem size_nonneg (value : UnpackedFloat) : 0 ≤ size value := by
  cases value with
  | finite sign mantissa exponent positive =>
    rw [size]
    positivity
  | notANumber | infinity | zero => exact le_rfl

def greatest : ℚ :=
  (2 ^ 53 - 1) * 2 ^ (971 : Int)

theorem size_le_greatest {value : UnpackedFloat} (stored : IsStored value) :
    size value ≤ greatest := by
  cases value with
  | finite sign mantissa exponent positive =>
    have places : (mantissa : ℚ) + 1 ≤ 2 ^ 53 := by exact_mod_cast stored.fits
    have unit : (2 : ℚ) ^ exponent ≤ 2 ^ (971 : Int) :=
      zpow_le_zpow_right₀ (by norm_num) stored.greatest
    have above : (0 : ℚ) ≤ 2 ^ exponent := by positivity
    exact mul_le_mul (by linarith) unit above (by norm_num)
  | notANumber | infinity | zero =>
    rw [greatest]
    exact mul_nonneg (by norm_num) (by positivity)

-- What a finite double can be moved by without an overflow.
def smallLimit : ℚ :=
  2 ^ 40

theorem greatest_lt_overflow : greatest < overflow := by
  have doubled : (2 : ℚ) ^ (971 : Int) = 2 * 2 ^ (970 : Int) := power_succ 970
  have unit : (0 : ℚ) < 2 ^ (970 : Int) := by positivity
  rw [greatest, overflow, doubled]
  generalize (2 : ℚ) ^ (970 : Int) = far at unit
  norm_num
  linarith

theorem greatest_add_small : greatest + smallLimit < overflow := by
  have doubled : (2 : ℚ) ^ (971 : Int) = 2 * 2 ^ (970 : Int) := power_succ 970
  have split : (2 : ℚ) ^ (970 : Int) = 2 ^ (930 : Int) * 2 ^ (40 : Int) := power_add 930 40
  have many : (1 : ℚ) < 2 ^ (930 : Int) := one_lt_zpow₀ (by norm_num) (by norm_num)
  rw [greatest, overflow, smallLimit, doubled, split]
  generalize (2 : ℚ) ^ (930 : Int) = far at many
  norm_num
  linarith

section Operations

variable {left right value : UnpackedFloat} {sign : Sign} {q : ℚ}

theorem Rounds.repack_finite (rounds : Rounds sign q value) (below : q < overflow) :
    (repack value).isFinite = true := by
  obtain ⟨same, finite⟩ := rounds.repack_eq below
  rwa [same]

theorem add_finite (stored : IsStored left) (stored' : IsStored right)
    (finite : left.isFinite = true) (finite' : right.isFinite = true)
    (below : size left + size right < overflow) :
    (repack (UnpackedFloat.add .binary64 left right)).isFinite = true := by
  rcases finite_cases finite with ⟨sign, rfl⟩ | ⟨sign, mantissa, exponent, positive, rfl⟩
  · rcases finite_cases finite' with ⟨sign', rfl⟩ | ⟨sign', mantissa', exponent', positive', rfl⟩
    · cases sign <;> cases sign' <;> rfl
    · change (repack (.finite sign' mantissa' exponent' positive')).isFinite = true
      rwa [repack_eq stored']
  · rcases finite_cases finite' with ⟨sign', rfl⟩ | ⟨sign', mantissa', exponent', positive', rfl⟩
    · change (repack (.finite sign mantissa exponent positive)).isFinite = true
      rwa [repack_eq stored]
    · obtain ⟨result, q, -, sum, rounds⟩ :=
        @add_rounds sign mantissa exponent sign' mantissa' exponent' positive positive'
      have most := le_add_of_signed (by positivity) (by positivity) sum
      exact rounds.repack_finite (most.trans_lt below)

theorem div_finite (stored : IsStored left) (finite : left.isFinite = true)
    (finite' : right.isFinite = true) (one : 1 ≤ size right) :
    (repack (UnpackedFloat.div .binary64 left right)).isFinite = true := by
  rcases finite_cases finite' with ⟨sign', rfl⟩ | ⟨sign', mantissa', exponent', positive', rfl⟩
  · rw [size] at one
    norm_num at one
  · rcases finite_cases finite with ⟨sign, rfl⟩ | ⟨sign, mantissa, exponent, positive, rfl⟩
    · have kept : repack (.zero (sign / sign')) = .zero (sign / sign') := repack_eq trivial
      exact congrArg UnpackedFloat.isFinite kept
    · refine div_rounds.repack_finite (lt_of_le_of_lt ?_ greatest_lt_overflow)
      have small := size_le_greatest stored
      exact (div_le_self (size_nonneg _) one).trans small

end Operations

section Doubles

variable {x y : Float}

theorem isFinite_add (finite : x.isFinite = true) (finite' : y.isFinite = true)
    (below : size (parts x) + size (parts y) < overflow) : (x + y).isFinite = true :=
  add_finite (parts_stored x) (parts_stored y) finite finite' below

theorem isFinite_add_small (finite : x.isFinite = true) (finite' : y.isFinite = true)
    (small : size (parts y) ≤ smallLimit) : (x + y).isFinite = true := by
  have below := size_le_greatest (parts_stored x)
  exact isFinite_add finite finite' (by linarith [greatest_add_small])

theorem isFinite_div (finite : x.isFinite = true) (finite' : y.isFinite = true)
    (one : 1 ≤ size (parts y)) : (x / y).isFinite = true :=
  div_finite (parts_stored x) finite finite' one

theorem size_ofNatural_le (n : Nat) : size (parts (ofNatural n)) ≤ 2 * n + 1 := by
  have near := (ofNatural_rounds n).1.size_near (by positivity)
  have few : (n.toUInt64.toNat : ℚ) ≤ n := by exact_mod_cast Nat.mod_le n _
  have least : (2 : ℚ) ^ (-1075 : Int) ≤ 1 := zpow_le_one_of_nonpos₀ (by norm_num) (by norm_num)
  have share : (n.toUInt64.toNat : ℚ) / 2 ^ 53 ≤ n.toUInt64.toNat :=
    div_le_self (by positivity) (by norm_num)
  linarith [(abs_le.1 near).2]

theorem size_ofInteger_le (n : Int) : size (parts (ofInteger n)) ≤ 2 * n.natAbs + 1 := by
  have size_neg (value : UnpackedFloat) : size value.neg = size value := by
    cases value <;> rfl
  rw [ofInteger]
  split
  · rw [parts_neg, size_neg]
    exact size_ofNatural_le n.natAbs
  · exact size_ofNatural_le n.natAbs

-- A percentage, or a few of them, is far below what could take a finite double to the overflow.
theorem isFinite_add_integer (finite : x.isFinite = true) {n : Int} (small : n.natAbs ≤ 2 ^ 38) :
    (x + ofInteger n).isFinite = true := by
  have few : (n.natAbs : ℚ) ≤ 2 ^ 38 := by exact_mod_cast small
  have size := size_ofInteger_le n
  refine isFinite_add_small finite (ofInteger_finite n) (size.trans ?_)
  rw [smallLimit]
  linarith

-- What the rules divide by: a half, a percentage, and the double of one.
theorem isFinite_share (finite : x.isFinite = true) (divisor : y ∈ [2.0, 50.0, 100.0]) :
    (x / y).isFinite = true := by
  have two : parts 2.0 = .finite .positive (2 ^ 52) (-51) (by decide) := rfl
  have fifty : parts 50.0 = .finite .positive (25 * 2 ^ 48) (-47) (by decide) := rfl
  have hundred : parts 100.0 = .finite .positive (25 * 2 ^ 48) (-46) (by decide) := rfl
  have large : 1 ≤ size (parts y) ∧ y.isFinite = true := by
    simp only [List.mem_cons, List.not_mem_nil, or_false] at divisor
    rcases divisor with rfl | rfl | rfl
    · exact ⟨by rw [two, size]; norm_num, by decide⟩
    · exact ⟨by rw [fifty, size]; norm_num, by decide⟩
    · exact ⟨by rw [hundred, size]; norm_num, by decide⟩
  exact isFinite_div finite large.2 large.1

theorem isFinite_multiplier (percent : Int) :
    (1.0 + ofInteger percent / 100.0).isFinite = true := by
  have one : parts 1.0 = .finite .positive (2 ^ 52) (-52) (by decide) := rfl
  have share := isFinite_share (ofInteger_finite percent) (by simp : 100.0 ∈ [2.0, 50.0, 100.0])
  have most := size_le_greatest (parts_stored (ofInteger percent / 100.0))
  have unit : size (parts 1.0) = 1 := by
    rw [one, size]
    norm_num
  refine isFinite_add (by decide) share ?_
  have small : (1 : ℚ) ≤ smallLimit := one_le_pow₀ (by norm_num)
  linarith [greatest_add_small]

theorem isFinite_least (finite : x.isFinite = true) (finite' : y.isFinite = true) :
    (least x y).isFinite = true := by
  rw [least]
  split
  · exact finite'
  · exact finite

theorem isFinite_confine {low high : Float} (finite : low.isFinite = true)
    (finite' : high.isFinite = true) (finite'' : x.isFinite = true) :
    (confine low high x).isFinite = true := by
  have raised : (if x < low then low else x).isFinite = true := by
    split
    · exact finite
    · exact finite''
  simp only [confine]
  generalize (if x < low then low else x) = value at raised ⊢
  split
  · exact finite'
  · exact raised

end Doubles

end Spellcraft.Number
