import Spellcraft.Proofs.Number.Product

set_option autoImplicit false

namespace Spellcraft.Number

open Float.Model (UnpackedFloat Format)
open Float.Model.UnpackedFloat

def partsRat : UnpackedFloat → ℚ
  | .finite .positive mantissa exponent _ => mantissa * 2 ^ exponent
  | .finite .negative mantissa exponent _ => -(mantissa * 2 ^ exponent)
  | .zero _ | .infinity _ | .notANumber => 0

def toRat (x : Float) : ℚ :=
  partsRat (parts x)

theorem partsRat_neg (value : UnpackedFloat) : partsRat value.neg = -partsRat value := by
  rcases value with _ | _ | _ | ⟨_ | _, mantissa, exponent, positive⟩ <;>
    simp [UnpackedFloat.neg, partsRat]

theorem toRat_neg (x : Float) : toRat (-x) = -toRat x := by
  rw [toRat, parts_neg, partsRat_neg]
  rfl

section Rounded

variable {sign : Sign} {q p : ℚ} {value last : UnpackedFloat}

theorem Rounds.partsRat (rounds : Rounds sign q value) :
    partsRat value = signed sign (size value) := by
  rcases rounds.shape with rfl | ⟨mantissa, exponent, positive, rfl, -⟩ <;>
    cases sign <;> simp [Number.partsRat, signed, size]

-- Either both are rounded to the same places, or the greater one has a place more to the left.
theorem Rounds.size_mono {sign' : Sign} (lower : Rounds sign q value) (higher : Rounds sign' p last)
    (below : q ≤ p) : size value ≤ size last := by
  obtain ⟨exponent, n, scale, nearest, rfl⟩ := lower
  obtain ⟨exponent', m, scale', nearest', rfl⟩ := higher
  have unit : (0 : ℚ) < 2 ^ exponent := by positivity
  rw [size_rounded sign (nearest.le_carried scale), size_rounded sign' (nearest'.le_carried scale')]
  rcases (scale.mono scale' below).lt_or_eq with less | rfl
  · have most : (n : ℚ) ≤ 2 ^ 53 := by exact_mod_cast nearest.le_carried scale
    have full : 2 ^ 52 ≤ m := (nearest'.full scale').resolve_right (by have := scale.least; omega)
    have full : (2 : ℚ) ^ 52 ≤ m := by exact_mod_cast full
    calc (n : ℚ) * 2 ^ exponent ≤ 2 ^ 53 * 2 ^ exponent := by gcongr
      _ = 2 ^ 52 * 2 ^ (exponent + 1) := by rw [power_succ]; ring
      _ ≤ m * 2 ^ exponent' := by
        gcongr
        · norm_num
        · omega
  · have fewer : n ≤ m := nearest.mono nearest' (by gcongr)
    gcongr

end Rounded

@[irreducible] def limit : ℚ :=
  2 ^ (1024 : Int)

theorem limit_pos : 0 < limit := by
  rw [limit]
  positivity

/-- The exact value of a double, where the infinite ones stand at the limit. -/
def partsExtent : UnpackedFloat → ℚ
  | .infinity .negative => -limit
  | .infinity .positive => limit
  | value => partsRat value

def extent (x : Float) : ℚ :=
  partsExtent (parts x)

section Ordered

variable {mantissa mantissa' : Nat} {exponent exponent' : Int} {value last : UnpackedFloat}
  {x y : Float}

theorem Stored.lt_limit (stored : Stored mantissa exponent) :
    (mantissa : ℚ) * 2 ^ exponent < limit := by
  have fits : (mantissa : ℚ) < 2 ^ 53 := by exact_mod_cast stored.fits
  have far : (2 : ℚ) ^ exponent ≤ 2 ^ (971 : Int) :=
    zpow_le_zpow_right₀ (by norm_num) stored.greatest
  have unit : (0 : ℚ) < 2 ^ exponent := by positivity
  calc (mantissa : ℚ) * 2 ^ exponent < 2 ^ 53 * 2 ^ exponent := by gcongr
    _ ≤ 2 ^ 53 * 2 ^ (971 : Int) := by gcongr
    _ = limit := by
      rw [limit]
      exact (power_add 53 971).symm

theorem Stored.lt (stored : Stored mantissa exponent) (stored' : Stored mantissa' exponent')
    (before : exponent < exponent' ∨ exponent = exponent' ∧ mantissa < mantissa') :
    (mantissa : ℚ) * 2 ^ exponent < mantissa' * 2 ^ exponent' := by
  rcases before with less | ⟨rfl, fewer⟩
  · have fits : (mantissa : ℚ) < 2 ^ 53 := by exact_mod_cast stored.fits
    have full : 2 ^ 52 ≤ mantissa' :=
      stored'.full.resolve_right (by have := stored.least; omega)
    have full : (2 : ℚ) ^ 52 ≤ mantissa' := by exact_mod_cast full
    have unit : (0 : ℚ) < 2 ^ exponent := by positivity
    calc (mantissa : ℚ) * 2 ^ exponent < 2 ^ 53 * 2 ^ exponent := by gcongr
      _ = 2 ^ 52 * 2 ^ (exponent + 1) := by rw [power_succ]; ring
      _ ≤ mantissa' * 2 ^ exponent' := by
        gcongr
        · norm_num
        · omega
  · gcongr

theorem parts_lt_extent (stored : IsStored value) (stored' : IsStored last)
    (before : value.lt last = true) : partsExtent value < partsExtent last := by
  have far := limit_pos
  have size_pos {mantissa : Nat} (positive : 0 < mantissa) (exponent : Int) :
      0 < (mantissa : ℚ) * 2 ^ exponent := by positivity
  rcases value with (_ | _) | _ | _ | ⟨_ | _, mantissa, exponent, positive⟩ <;>
    rcases last with (_ | _) | _ | _ | ⟨_ | _, mantissa', exponent', positive'⟩ <;>
    simp [UnpackedFloat.lt, UnpackedFloat.compare, then_eq_lt, then_eq_gt] at before <;>
    simp only [partsExtent, partsRat]
  case infinity.negative.infinity.positive => linarith
  case infinity.negative.zero => linarith
  case infinity.negative.finite.negative => linarith [Stored.lt_limit stored']
  case infinity.negative.finite.positive => linarith [size_pos positive' exponent']
  case zero.infinity.positive => exact far
  case zero.finite.positive => exact size_pos positive' exponent'
  case finite.negative.infinity.positive => linarith [size_pos positive exponent]
  case finite.negative.zero => linarith [size_pos positive exponent]
  case finite.negative.finite.negative =>
    exact neg_lt_neg (Stored.lt stored' stored (before.imp_right (.imp_left Eq.symm)))
  case finite.negative.finite.positive =>
    linarith [size_pos positive exponent, size_pos positive' exponent']
  case finite.positive.infinity.positive => exact Stored.lt_limit stored
  case finite.positive.finite.positive => exact Stored.lt stored stored' before

theorem partsExtent_congr {position : Int ×ₗ Int ×ₗ Int} (ranked : partsRank value = some position)
    (ranked' : partsRank last = some position) : partsExtent value = partsExtent last := by
  rcases value with (_ | _) | _ | _ | ⟨_ | _, mantissa, exponent, positive⟩ <;>
    cases ranked <;>
    rcases last with (_ | _) | _ | _ | ⟨_ | _, mantissa', exponent', positive'⟩ <;>
    simp [partsRank] at ranked' <;> simp [partsExtent, partsRat, ranked']

theorem extent_lt (before : x < y) : extent x < extent y :=
  parts_lt_extent (parts_stored x) (parts_stored y) ((parts_lt_iff _ _).2 (lt_iff.1 before))

theorem extent_le (before : x ≤ y) : extent x ≤ extent y := by
  obtain ⟨low, high, ranked, ranked', below⟩ := le_iff.1 before
  rcases below.lt_or_eq with less | rfl
  · exact (extent_lt (lt_iff.2 ⟨low, high, ranked, ranked', less⟩)).le
  · exact (partsExtent_congr ranked ranked').le

theorem le_of_extent (number : x.isNaN = false) (number' : y.isNaN = false)
    (below : extent x ≤ extent y) : x ≤ y :=
  le_of_not_lt number' number fun above => (extent_lt above).not_ge below

theorem lt_of_extent (number : x.isNaN = false) (number' : y.isNaN = false)
    (below : extent x < extent y) : x < y :=
  lt_of_not_le number' number fun above => (extent_le above).not_gt below

theorem extent_of_finite (finite : x.isFinite = true) : extent x = toRat x := by
  change (parts x).isFinite = true at finite
  rw [extent, toRat]
  rcases finite_cases finite with ⟨sign, shape⟩ | ⟨sign, mantissa, exponent, positive, shape⟩ <;>
    rw [shape, partsExtent] <;> simp

end Ordered

section Results

variable {q p : ℚ} {value last : UnpackedFloat} {x y : Float}

def RoundsTo (q : ℚ) (value : UnpackedFloat) : Prop :=
  ∃ sign size, 0 ≤ size ∧ signed sign size = q ∧ Rounds sign size value

theorem RoundsTo.mono (lower : RoundsTo q value) (higher : RoundsTo p last) (below : q ≤ p) :
    partsRat value ≤ partsRat last := by
  obtain ⟨sign, low, above, rfl, rounds⟩ := lower
  obtain ⟨sign', high, above', rfl, rounds'⟩ := higher
  rw [rounds.partsRat, rounds'.partsRat]
  have some := size_nonneg value
  have some' := size_nonneg last
  cases sign <;> cases sign' <;> simp only [signed] at below ⊢
  case negative.negative => linarith [rounds'.size_mono rounds (by linarith)]
  case negative.positive => linarith
  case positive.negative =>
    -- Only zero is neither below nor above itself.
    obtain rfl : low = 0 := by linarith
    obtain rfl : high = 0 := by linarith
    rw [rounds.unique (rounds_zero _), rounds'.unique (rounds_zero _)]
    simp [size]
  case positive.positive => exact rounds.size_mono rounds' below

def held (q : ℚ) : ℚ :=
  max (-limit) (min limit q)

theorem held_mono (below : q ≤ p) : held q ≤ held p :=
  max_le_max le_rfl (min_le_min le_rfl below)

theorem held_of_abs_le (inside : |q| ≤ limit) : held q = q := by
  obtain ⟨low, high⟩ := abs_le.1 inside
  rw [held, min_eq_right high, max_eq_right low]

theorem held_signed (sign : Sign) (beyond : limit ≤ q) :
    held (signed sign q) = signed sign limit := by
  have far := limit_pos
  cases sign
  · rw [held, signed, min_eq_right (by linarith), max_eq_left (by linarith), signed]
  · rw [held, signed, min_eq_left beyond, max_eq_right (by linarith), signed]

theorem partsRat_finite (sign : Sign) (mantissa : Nat) (exponent : Int) (positive : 0 < mantissa) :
    partsRat (.finite sign mantissa exponent positive) = signed sign (mantissa * 2 ^ exponent) := by
  cases sign <;> rfl

theorem RoundsTo.extent_repack (rounds : RoundsTo q value) :
    (repack value).isNaN = false ∧ partsExtent (repack value) = held (partsRat value) := by
  obtain ⟨sign, size, -, -, rounds⟩ := rounds
  rcases rounds.shape with rfl | ⟨mantissa, exponent, positive, rfl, stored, full⟩
  · have kept : repack (.zero sign) = .zero sign := repack_eq trivial
    have inside : |partsRat (.zero sign)| ≤ limit := by simpa [partsRat] using limit_pos.le
    rw [kept, held_of_abs_le inside]
    exact ⟨rfl, rfl⟩
  · by_cases great : 972 ≤ exponent
    · have many : (2 : ℚ) ^ 52 ≤ mantissa := by exact_mod_cast full great
      have beyond : limit ≤ mantissa * 2 ^ exponent := by
        calc limit = 2 ^ 52 * 2 ^ (972 : Int) := by
              rw [limit]
              exact power_add 52 972
          _ ≤ mantissa * 2 ^ exponent :=
            mul_le_mul many (zpow_le_zpow_right₀ (by norm_num) great) (by positivity)
              (by positivity)
      rw [repack_great great, partsRat_finite, held_signed sign beyond]
      cases sign <;> exact ⟨rfl, rfl⟩
    · have stored := stored (by omega)
      have inside : |partsRat (.finite sign mantissa exponent positive)| ≤ limit := by
        rw [partsRat_finite, abs_signed, abs_of_pos (by positivity)]
        exact stored.lt_limit.le
      rw [repack_stored stored, held_of_abs_le inside]
      exact ⟨rfl, rfl⟩

def Approximates (x : Float) (q : ℚ) : Prop :=
  ∃ value, RoundsTo q value ∧ parts x = repack value

theorem Approximates.number (approximates : Approximates x q) : x.isNaN = false := by
  obtain ⟨value, rounds, same⟩ := approximates
  change (parts x).isNaN = false
  rw [same]
  exact rounds.extent_repack.1

theorem Approximates.le (lower : Approximates x q) (higher : Approximates y p) (below : q ≤ p) :
    x ≤ y := by
  refine le_of_extent lower.number higher.number ?_
  obtain ⟨value, rounds, same⟩ := lower
  obtain ⟨last, rounds', same'⟩ := higher
  rw [extent, extent, same, same', rounds.extent_repack.2, rounds'.extent_repack.2]
  exact held_mono (rounds.mono rounds' below)

theorem roundsTo_zero (sign : Sign) : RoundsTo 0 (.zero sign) :=
  ⟨sign, 0, le_rfl, by cases sign <;> simp [signed], rounds_zero sign⟩

theorem roundsTo_self (stored : IsStored value) (finite : value.isFinite = true) :
    RoundsTo (partsRat value) value := by
  rcases finite_cases finite with ⟨sign, rfl⟩ | ⟨sign, mantissa, exponent, positive, rfl⟩
  · exact roundsTo_zero sign
  · exact ⟨sign, _, by positivity, (partsRat_finite ..).symm, rounds_self stored positive sign⟩

theorem add_roundsTo {left right : UnpackedFloat} (stored : IsStored left)
    (stored' : IsStored right) (finite : left.isFinite = true) (finite' : right.isFinite = true) :
    RoundsTo (partsRat left + partsRat right) (UnpackedFloat.add .binary64 left right) := by
  rcases finite_cases finite with ⟨sign, rfl⟩ | ⟨sign, mantissa, exponent, positive, rfl⟩
  · rw [show partsRat (.zero sign) = 0 from rfl, zero_add]
    rcases finite_cases finite' with ⟨sign', rfl⟩ | ⟨sign', mantissa', exponent', positive', rfl⟩
    · cases sign <;> cases sign' <;> exact roundsTo_zero _
    · exact roundsTo_self stored' rfl
  · rcases finite_cases finite' with ⟨sign', rfl⟩ | ⟨sign', mantissa', exponent', positive', rfl⟩
    · rw [show partsRat (.zero sign') = 0 from rfl, add_zero]
      exact roundsTo_self stored rfl
    · obtain ⟨result, size, above, sum, rounds⟩ :=
        @add_rounds sign mantissa exponent sign' mantissa' exponent' positive positive'
      exact ⟨result, size, above, by rw [sum, partsRat_finite, partsRat_finite], rounds⟩

theorem signed_mul_signed (sign sign' : Sign) (q p : ℚ) :
    signed (sign * sign') (q * p) = signed sign q * signed sign' p := by
  cases sign <;> cases sign'
  · exact (neg_mul_neg q p).symm
  · exact (neg_mul q p).symm
  · exact (mul_neg q p).symm
  · rfl

theorem mul_roundsTo {left right : UnpackedFloat} (stored : IsStored left)
    (stored' : IsStored right) (finite : left.isFinite = true) (finite' : right.isFinite = true) :
    RoundsTo (partsRat left * partsRat right) (UnpackedFloat.mul .binary64 left right) := by
  rcases finite_cases finite with ⟨sign, rfl⟩ | ⟨sign, mantissa, exponent, positive, rfl⟩
  · rw [show partsRat (.zero sign) = 0 from rfl, zero_mul]
    rcases finite_cases finite' with
      ⟨sign', rfl⟩ | ⟨sign', mantissa', exponent', positive', rfl⟩ <;>
      exact roundsTo_zero _
  · rcases finite_cases finite' with ⟨sign', rfl⟩ | ⟨sign', mantissa', exponent', positive', rfl⟩
    · rw [show partsRat (.zero sign') = 0 from rfl, mul_zero]
      exact roundsTo_zero _
    · rw [partsRat_finite, partsRat_finite, ← signed_mul_signed]
      refine ⟨_, _, by positivity, rfl, mul_rounds ?_⟩
      -- Two short mantissas have the last exponent both.
      rcases Stored.full stored with many | low
      · exact .inl (many.trans (Nat.le_mul_of_pos_right _ positive'))
      · rcases Stored.full stored' with many | low'
        · exact .inl (many.trans (Nat.le_mul_of_pos_left _ positive))
        · exact .inr (by omega)

theorem approximates_of_rounds {size : ℚ} (above : 0 ≤ size)
    (rounds : Rounds .positive size (parts x)) : Approximates x size :=
  ⟨parts x, ⟨.positive, size, above, rfl, rounds⟩, (repack_eq (parts_stored x)).symm⟩

theorem approximates_add (finite : x.isFinite = true) (finite' : y.isFinite = true) :
    Approximates (x + y) (toRat x + toRat y) :=
  ⟨_, add_roundsTo (parts_stored x) (parts_stored y) finite finite', rfl⟩

theorem approximates_mul (finite : x.isFinite = true) (finite' : y.isFinite = true) :
    Approximates (x * y) (toRat x * toRat y) :=
  ⟨_, mul_roundsTo (parts_stored x) (parts_stored y) finite finite', rfl⟩

end Results

end Spellcraft.Number
