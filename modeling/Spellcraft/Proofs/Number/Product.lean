import Spellcraft.Proofs.Number.Finite

set_option autoImplicit false

namespace Spellcraft.Number

open Float.Model (UnpackedFloat Format)
open Float.Model.UnpackedFloat

section Values

variable {sign : Sign} {n : Nat} {exponent : Int} {q : ℚ} {value : UnpackedFloat}

-- A value on a grid of 53 places is on the finer grid that it is rounded to.
theorem Rounds.exact (rounds : Rounds sign (n * 2 ^ exponent) value) (fits : n < 2 ^ 53)
    (least : -1074 ≤ exponent) : size value = n * 2 ^ exponent := by
  obtain ⟨place, m, scale, nearest, rfl⟩ := rounds
  have unit : (0 : ℚ) < 2 ^ place := by positivity
  have finer : place ≤ exponent := by
    rcases scale.full with full | lowest
    · by_contra coarser
      have grown : (2 : ℚ) ^ (exponent + 53) ≤ 2 ^ (place + 52) :=
        zpow_le_zpow_right₀ (by norm_num) (by omega)
      have places : (2 : ℚ) ^ (exponent + 53) = 2 ^ exponent * 2 ^ 53 := power_add exponent 53
      have fits : (n : ℚ) < 2 ^ 53 := by exact_mod_cast fits
      have above : (0 : ℚ) < 2 ^ exponent := by positivity
      nlinarith
    · omega
  have whole : (n : ℚ) * 2 ^ exponent / 2 ^ place = (n * 2 ^ (exponent - place).toNat : Nat) := by
    have arrives : exponent = ((exponent - place).toNat : Int) + place := by omega
    rw [div_eq_iff unit.ne']
    nth_rewrite 1 [arrives]
    rw [power_add, zpow_natCast]
    push_cast
    ring
  have carried := nearest.le_carried scale
  rw [whole] at nearest
  obtain rfl := nearest.unique (.self _)
  rw [size_rounded sign carried, ← whole, div_mul_cancel₀ _ unit.ne']

theorem size_ofNatural (small : n < 2 ^ 53) : size (parts (ofNatural n)) = n := by
  have word : n.toUInt64.toNat = n := Nat.mod_eq_of_lt (by omega)
  have rounds := (ofNatural_rounds n).1
  rw [word] at rounds
  have exact := @Rounds.exact .positive n 0 (parts (ofNatural n)) (by simpa using rounds) small
    (by omega)
  simpa using exact

theorem Rounds.one_le (rounds : Rounds sign q value) (one : 1 ≤ q) : 1 ≤ size value := by
  obtain ⟨place, n, scale, nearest, rfl⟩ := rounds
  have unit : (0 : ℚ) < 2 ^ place := by positivity
  have near := (div_le_iff₀ unit).1 nearest.below
  rw [size_rounded sign (nearest.le_carried scale)]
  rcases le_total place 0 with below | above
  · -- One is a whole number of such units, and no more of them than there are.
    have units : (2 : ℚ) ^ place * (2 ^ (-place).toNat : Nat) = 1 := by
      push_cast
      rw [← zpow_natCast, ← power_add, Int.toNat_of_nonneg (by omega), add_neg_cancel, zpow_zero]
    have whole : ((2 ^ (-place).toNat : Nat) : ℚ) < n + 1 := by
      refine lt_of_mul_lt_mul_left ?_ unit.le
      linarith
    have whole : ((2 ^ (-place).toNat : Nat) : ℚ) ≤ n := by
      exact_mod_cast Nat.lt_succ_iff.1 (by exact_mod_cast whole)
    calc (1 : ℚ) = 2 ^ (-place).toNat * 2 ^ place := by rw [← units]; push_cast; ring
      _ ≤ n * 2 ^ place := by gcongr; exact_mod_cast whole
  · have large : (1 : ℚ) ≤ 2 ^ place := one_le_zpow₀ (by norm_num) above
    have some : (1 : ℚ) ≤ n := by
      have positive : (0 : ℚ) < n := by
        rcases scale.full with full | lowest
        · have places : (2 : ℚ) ^ (place + 52) = 2 ^ place * 2 ^ 52 := power_add place 52
          rw [places] at full
          by_contra none
          nlinarith
        · omega
      exact_mod_cast positive
    nlinarith

theorem rounds_self {mantissa : Nat} (stored : Stored mantissa exponent)
    (positive : 0 < mantissa) (sign : Sign) :
    Rounds sign (mantissa * 2 ^ exponent) (.finite sign mantissa exponent positive) := by
  have unit : (2 : ℚ) ^ exponent ≠ 0 := by positivity
  refine Within.rounds ⟨?_, fun least _ => ?_⟩ stored positive sign
  · rw [mul_div_cancel_right₀ _ unit]
    exact .self mantissa
  · rw [mul_div_cancel_right₀ _ unit, least]
    norm_num

end Values

section Doubles

variable {x y : Float} {p q : ℚ}

structure Nears (x : Float) (q : ℚ) : Prop where
  rounds : Rounds .positive q (parts x)
  one : 1 ≤ q

theorem Nears.one_le (nears : Nears x q) : 1 ≤ size (parts x) :=
  nears.rounds.one_le nears.one

theorem Nears.near (nears : Nears x q) : |size (parts x) - q| ≤ 7 / 5 / 2 ^ 53 * q := by
  have one := nears.one
  have near := nears.rounds.size_near (zero_le_one.trans one)
  have tiny : (2 : ℚ) ^ (-1075 : Int) ≤ 2 / 5 / 2 ^ 53 :=
    calc (2 : ℚ) ^ (-1075 : Int) ≤ 2 ^ (-55 : Int) :=
          zpow_le_zpow_right₀ (by norm_num) (by norm_num)
      _ ≤ 2 / 5 / 2 ^ 53 := by norm_num
  generalize (2 : ℚ) ^ (-1075 : Int) = least at near tiny
  linarith

theorem Nears.size_le (nears : Nears x q) : size (parts x) ≤ q * (1 + 7 / 5 / 2 ^ 53) := by
  linarith [(abs_le.1 nears.near).2]

theorem Nears.shape (nears : Nears x q) :
    ∃ mantissa exponent positive,
      parts x = .finite .positive mantissa exponent positive ∧ 2 ^ 52 ≤ mantissa := by
  have large := nears.one_le
  have stored := parts_stored x
  rcases nears.rounds.shape with zero | ⟨mantissa, exponent, positive, shape, -⟩
  · rw [zero, size] at large
    norm_num at large
  rw [shape] at stored large
  refine ⟨mantissa, exponent, positive, shape, stored.full.resolve_right fun lowest => ?_⟩
  -- Even with all its places, a double of the lowest exponent is far below one.
  have fits : (mantissa : ℚ) < 2 ^ 53 := by exact_mod_cast stored.fits
  have tiny : (2 : ℚ) ^ (-1074 : Int) ≤ 2 ^ (-53 : Int) :=
    zpow_le_zpow_right₀ (by norm_num) (by norm_num)
  rw [size, lowest] at large
  have most : (mantissa : ℚ) * 2 ^ (-1074 : Int) ≤ mantissa * 2 ^ (-53 : Int) := by gcongr
  have less : (mantissa : ℚ) * 2 ^ (-53 : Int) < 1 := by
    rw [zpow_neg, ← div_eq_mul_inv, div_lt_one (by positivity)]
    exact_mod_cast fits
  linarith

theorem Nears.mul_parts (left : Nears x p) (right : Nears y q) :
    Rounds .positive (size (parts x) * size (parts y))
      (UnpackedFloat.mul .binary64 (parts x) (parts y)) := by
  obtain ⟨mantissa, exponent, positive, shape, full⟩ := left.shape
  obtain ⟨mantissa', exponent', positive', shape', -⟩ := right.shape
  rw [shape, shape']
  have fine : 2 ^ 52 ≤ mantissa * mantissa' := full.trans (Nat.le_mul_of_pos_right _ positive')
  exact mul_rounds (.inl fine)

theorem Nears.mul (left : Nears x p) (right : Nears y q)
    (below : size (parts x) * size (parts y) < overflow) :
    Rounds .positive (size (parts x) * size (parts y)) (parts (x * y)) := by
  have rounds := left.mul_parts right
  change Rounds _ _ (repack (UnpackedFloat.mul .binary64 (parts x) (parts y)))
  rwa [(rounds.repack_eq below).1]

theorem Nears.mul_of_finite (left : Nears x p) (right : Nears y q)
    (finite : (x * y).isFinite = true) :
    Rounds .positive (size (parts x) * size (parts y)) (parts (x * y)) := by
  have rounds := left.mul_parts right
  change Rounds _ _ (repack (UnpackedFloat.mul .binary64 (parts x) (parts y)))
  rwa [rounds.repack_of_finite finite]

theorem Rounds.div (left : Rounds .positive p (parts x)) (right : Nears y q) :
    Rounds .positive (size (parts x) / size (parts y)) (parts (x / y)) := by
  have large := right.one_le
  have most := size_le_greatest (parts_stored x)
  have below : size (parts x) / size (parts y) < overflow :=
    ((div_le_self (size_nonneg _) large).trans most).trans_lt greatest_lt_overflow
  obtain ⟨mantissa', exponent', positive', shape', -⟩ := right.shape
  have quotient : parts (x / y) =
      repack (UnpackedFloat.div .binary64 (parts x) (parts y)) := rfl
  rw [quotient]
  rcases left.shape with zero | ⟨mantissa, exponent, positive, shape, -⟩
  · have kept : repack (.zero .positive) = .zero .positive := rfl
    have nothing : size (.zero .positive) = 0 := rfl
    rw [zero, shape', nothing, zero_div]
    change Rounds _ _ (repack (.zero .positive))
    rw [kept]
    exact rounds_zero .positive
  · rw [shape, shape'] at below ⊢
    have rounds := @div_rounds .positive mantissa exponent .positive mantissa' exponent' positive
      positive'
    rwa [(rounds.repack_eq below).1]

theorem ofNatural_nears {n : Nat} (positive : 0 < n) (fits : n < 2 ^ 64) :
    Nears (ofNatural n) n := by
  have whole : n.toUInt64.toNat = n := UInt64.toNat_ofNat_of_lt' fits
  have rounds := (ofNatural_rounds n).1
  rw [whole] at rounds
  exact ⟨rounds, by exact_mod_cast positive⟩

end Doubles

end Spellcraft.Number
