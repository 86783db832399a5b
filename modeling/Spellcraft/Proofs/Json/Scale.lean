import Spellcraft.Json.Digits
import Spellcraft.Proofs.Number.Product
import Spellcraft.Proofs.Number.Shortest

set_option autoImplicit false

namespace Spellcraft.Json

open Number
open Float.Model (UnpackedFloat Format)
open Float.Model.UnpackedFloat

theorem powerOfTen_exact {k : Nat} (few : k ≤ 22) :
    ∃ mantissa exponent positive,
      parts (powerOfTen k) = .finite .positive mantissa exponent positive ∧
      (mantissa : ℚ) * 2 ^ exponent = 10 ^ k := by
  have exact : ∀ k : Fin 23,
      (match parts (powerOfTen k) with
      | .finite .positive mantissa exponent _ =>
        mantissa * 2 ^ exponent.toNat == 10 ^ k.val * 2 ^ (-exponent).toNat
      | _ => false) = true := by
    decide +kernel
  have exact := exact ⟨k, by omega⟩
  generalize parts (powerOfTen k) = value at exact
  split at exact
  next mantissa exponent positive =>
    refine ⟨mantissa, exponent, positive, rfl, ?_⟩
    have exact : mantissa * 2 ^ exponent.toNat = 10 ^ k * 2 ^ (-exponent).toNat := by
      simpa using exact
    have power : (2 : ℚ) ^ (-exponent).toNat ≠ 0 := by positivity
    rw [zpow_parts 2 exponent, ← mul_div_assoc, div_eq_iff power]
    exact_mod_cast exact
  next => cases exact

theorem power_lt_overflow {k : Nat} (few : k ≤ 308) : (10 : ℚ) ^ k < overflow := by
  have quarter : (10 : ℚ) ^ 77 ≤ 7 / 8 * 2 ^ 256 := by norm_num
  have limit : ((2 : ℚ) ^ 256) ^ 4 = 2 ^ (54 : Int) * 2 ^ (970 : Int) := by
    rw [← power_add, ← pow_mul]
    exact (zpow_natCast 2 (256 * 4)).symm
  have unit : (0 : ℚ) < 2 ^ (970 : Int) := by positivity
  calc (10 : ℚ) ^ k ≤ 10 ^ (77 * 4) := pow_le_pow_right₀ (by norm_num) few
    _ = (10 ^ 77) ^ 4 := pow_mul ..
    _ ≤ (7 / 8 * 2 ^ 256) ^ 4 := pow_le_pow_left₀ (by positivity) quarter 4
    _ = (7 / 8) ^ 4 * (2 ^ (54 : Int) * 2 ^ (970 : Int)) := by rw [mul_pow, limit]
    _ < overflow := by
      rw [overflow]
      generalize (2 : ℚ) ^ (970 : Int) = far at unit
      norm_num
      linarith

theorem powerOfTen_nears {k : Nat} (few : k ≤ 308) : Nears (powerOfTen k) (10 ^ k) := by
  refine ⟨?_, one_le_pow₀ (by norm_num)⟩
  by_cases exact : k ≤ 22
  · obtain ⟨mantissa, exponent, positive, shape, same⟩ := powerOfTen_exact exact
    have stored := parts_stored (powerOfTen k)
    rw [shape] at stored ⊢
    rw [← same]
    exact rounds_self stored positive .positive
  · have computed : parts (powerOfTen k) = repack (UnpackedFloat.ofScientific .binary64 1 k) := by
      rw [powerOfTen, Float.ofScientific, dif_neg (by omega)]
      rfl
    have product : UnpackedFloat.ofScientific .binary64 1 k =
        UnpackedFloat.mul .binary64 (.finite .positive (1 <<< 53) (-53) (by decide))
          (.finite .positive (10 ^ k) 0 (Nat.pow_pos (by decide))) := by
      rw [UnpackedFloat.ofScientific, dif_neg (by decide), if_neg, if_neg, if_pos (by omega)]
      · rfl
      · change ¬ (k : Int) < -((2 : Int) ^ 11 + (0 : Nat))
        omega
      · change ¬ (2 : Int) ^ 11 < k
        omega
    have positive : 0 < 10 ^ k := Nat.pow_pos (by decide)
    have fine : 2 ^ 52 ≤ 1 <<< 53 * 10 ^ k :=
      (by decide : 2 ^ 52 ≤ 1 <<< 53).trans (Nat.le_mul_of_pos_right _ positive)
    have rounds := @mul_rounds .positive (1 <<< 53) (-53) .positive (10 ^ k) 0 (by decide) positive
      (.inl fine)
    have value : ((1 <<< 53 : Nat) : ℚ) * 2 ^ (-53 : Int) * ((10 ^ k : Nat) * 2 ^ (0 : Int)) =
        10 ^ k := by
      push_cast
      norm_num
    rw [value] at rounds
    rw [computed, product, (rounds.repack_eq (power_lt_overflow few)).1]
    exact rounds

section Scaling

variable {x : Float} {n k : Nat} {exponent : Int} {p : ℚ}

theorem powerOfTen_isFinite (few : k ≤ 308) : (powerOfTen k).isFinite = true := by
  obtain ⟨_, _, _, shape, -⟩ := (powerOfTen_nears few).shape
  change (parts (powerOfTen k)).isFinite = true
  rw [shape]
  rfl

theorem isFinite_div_powerOfTen (few : k ≤ 308) (finite : x.isFinite = true) :
    (x / powerOfTen k).isFinite = true :=
  isFinite_div finite (powerOfTen_isFinite few) (powerOfTen_nears few).one_le

-- Each step down divides by one or more, which keeps a finite double finite.
theorem scale?_down (below : exponent < 0) (steps : Nat) (finite : x.isFinite = true) :
    ∃ y, scale? steps x exponent = some y ∧ y.isFinite = true := by
  induction steps generalizing x exponent with
  | zero => exact ⟨x, rfl, finite⟩
  | succ steps ih =>
    rw [scale?]
    split
    next few => exact ⟨_, rfl, isFinite_div_powerOfTen few finite⟩
    next many =>
      split
      next => exact ⟨x, rfl, finite⟩
      next =>
        rw [if_neg (by omega)]
        exact ih (by omega) (isFinite_div_powerOfTen le_rfl finite)

theorem scale?_up (steps : Nat) (few : k ≤ 308) (nears : Nears x p)
    (below : size (parts x) * size (parts (powerOfTen k)) < overflow) :
    scale? (steps + 1) x k = some (x * powerOfTen k) ∧
      Rounds .positive (size (parts x) * size (parts (powerOfTen k))) (parts (x * powerOfTen k)) ∧
      (x * powerOfTen k).isFinite = true := by
  have rounds := nears.mul (powerOfTen_nears few) below
  have finite : (parts (x * powerOfTen k)).isFinite = true := (rounds.repack_eq below).2
  have bounded : (x * powerOfTen k).isInf = false := by
    change (parts (x * powerOfTen k)).isInf = false
    generalize parts (x * powerOfTen k) = value at finite
    cases value <;> first | rfl | cases finite
  refine ⟨?_, rounds, finite⟩
  rw [scale?, if_pos (by simpa using few), if_neg (by omega)]
  simp only [Int.natAbs_natCast, bounded, Bool.false_eq_true, if_false]

-- Three roundings together move a value by less than two last places of a double.
theorem product_lt_overflow (nears : Nears x p) (few : k ≤ 308)
    (below : p * 10 ^ k ≤ (2 ^ 53 - 7 / 2) * 2 ^ (971 : Int)) :
    size (parts x) * size (parts (powerOfTen k)) < overflow := by
  have left := nears.size_le
  have right := (powerOfTen_nears few).size_le
  have one := (powerOfTen_nears few).one_le
  have doubled : (2 : ℚ) ^ (971 : Int) = 2 * 2 ^ (970 : Int) := power_succ 970
  have unit : (0 : ℚ) < 2 ^ (970 : Int) := by positivity
  have above : 0 ≤ p := zero_le_one.trans nears.one
  calc size (parts x) * size (parts (powerOfTen k))
      ≤ p * (1 + 7 / 5 / 2 ^ 53) * (10 ^ k * (1 + 7 / 5 / 2 ^ 53)) := by gcongr
    _ = p * 10 ^ k * (1 + 7 / 5 / 2 ^ 53) ^ 2 := by ring
    _ ≤ (2 ^ 53 - 7 / 2) * 2 ^ (971 : Int) * (1 + 7 / 5 / 2 ^ 53) ^ 2 := by gcongr
    _ < overflow := by
      rw [overflow, doubled]
      generalize (2 : ℚ) ^ (970 : Int) = far at unit
      norm_num
      linarith

theorem scale?_exact (positive : 0 < n) (few : n < 2 ^ 53) (short : exponent.natAbs ≤ 22)
    (steps : Nat) :
    ∃ y, scale? (steps + 1) (ofNatural n) exponent = some y ∧
      Rounds .positive (n * 10 ^ exponent) (parts y) := by
  have nears := ofNatural_nears positive (few.trans (by norm_num))
  have significand := size_ofNatural few
  have power : size (parts (powerOfTen exponent.natAbs)) = 10 ^ exponent.natAbs := by
    obtain ⟨_, _, _, shape, same⟩ := powerOfTen_exact short
    rw [shape]
    exact same
  have powers := powerOfTen_nears (short.trans (by decide))
  by_cases above : 0 ≤ exponent
  · obtain ⟨k, rfl⟩ := Int.eq_ofNat_of_zero_le above
    rw [Int.natAbs_natCast] at short power
    have below : (n : ℚ) * 10 ^ k ≤ (2 ^ 53 - 7 / 2) * 2 ^ (971 : Int) := by
      have small : (n : ℚ) ≤ 2 ^ 53 := by exact_mod_cast few.le
      have power : (10 : ℚ) ^ k ≤ 10 ^ 22 := pow_le_pow_right₀ (by norm_num) short
      have far : (10 : ℚ) ^ 23 ≤ 2 ^ (971 : Int) :=
        calc (10 : ℚ) ^ 23 ≤ 2 ^ (77 : Int) := by norm_num
          _ ≤ 2 ^ (971 : Int) := zpow_le_zpow_right₀ (by norm_num) (by norm_num)
      generalize (2 : ℚ) ^ (971 : Int) = limit at far
      calc (n : ℚ) * 10 ^ k ≤ 2 ^ 53 * 10 ^ 22 := by gcongr
        _ ≤ (2 ^ 53 - 7 / 2) * limit := by linarith
    have few : k ≤ 308 := short.trans (by decide)
    obtain ⟨scaled, rounds, -⟩ := scale?_up steps few nears (product_lt_overflow nears few below)
    rw [significand, power] at rounds
    exact ⟨_, scaled, by rwa [zpow_natCast]⟩
  · have rounds := nears.rounds.div powers
    rw [significand, power] at rounds
    refine ⟨ofNatural n / powerOfTen exponent.natAbs, ?_, ?_⟩
    · rw [scale?, if_pos (short.trans (by decide)), if_pos (by omega)]
    · have opposite : exponent = -(exponent.natAbs : Int) := by omega
      rw [opposite, zpow_neg, zpow_natCast, Int.natAbs_neg, Int.natAbs_natCast, ← div_eq_mul_inv]
      exact rounds

theorem scale?_finite {d : Decimal} (positive : 0 < d.digits) (fits : d.digits < 2 ^ 64)
    (bounded : 0 ≤ d.exponent →
      d.exponent ≤ 308 ∧ d.value ≤ (2 ^ 53 - 7 / 2) * 2 ^ (971 : Int)) (steps : Nat) :
    ∃ y, scale? (steps + 1) (ofNatural d.digits) d.exponent = some y ∧ y.isFinite = true := by
  by_cases above : 0 ≤ d.exponent
  · obtain ⟨short, below⟩ := bounded above
    obtain ⟨k, same⟩ := Int.eq_ofNat_of_zero_le above
    have few : k ≤ 308 := by omega
    have nears := ofNatural_nears positive fits
    rw [Decimal.value, same, zpow_natCast] at below
    rw [same]
    obtain ⟨scaled, -, finite⟩ := scale?_up steps few nears (product_lt_overflow nears few below)
    exact ⟨_, scaled, finite⟩
  · exact scale?_down (not_le.1 above) _ (ofNatural_finite _)

end Scaling

end Spellcraft.Json
