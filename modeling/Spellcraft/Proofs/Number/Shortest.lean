import Spellcraft.Number.Shortest
import Spellcraft.Proofs.Number.Magnitude

set_option autoImplicit false

namespace Spellcraft.Number

def Decimal.value (d : Decimal) : ℚ :=
  d.digits * 10 ^ d.exponent

def Binary.value (b : Binary) : ℚ :=
  b.mantissa * 2 ^ b.exponent

structure Binary.Valid (b : Binary) : Prop where
  stored : Stored b.mantissa b.exponent
  positive : 0 < b.mantissa
  close : b.closeBelow = (b.mantissa == hiddenBit && b.exponent != -1074)

theorem magnitude_valid {x : Float} {b : Binary} (finite : magnitude x = .finite b) :
    b.Valid ∧ ∃ sign positive, parts x = .finite sign b.mantissa b.exponent positive := by
  have stored := parts_stored x
  rw [magnitude_eq] at finite
  cases shape : parts x with
  | notANumber | infinity | zero =>
    rw [shape] at finite
    cases finite
  | finite sign mantissa exponent positive =>
    rw [shape] at finite stored
    cases finite
    exact ⟨⟨stored, positive, rfl⟩, sign, positive, rfl⟩

theorem zpow_parts (base : ℚ) (exponent : Int) :
    base ^ exponent = base ^ exponent.toNat / base ^ (-exponent).toNat := by
  rcases le_total 0 exponent with above | below
  · have none : (-exponent).toNat = 0 := by omega
    rw [none, pow_zero, div_one, ← zpow_natCast, Int.toNat_of_nonneg above]
  · have none : exponent.toNat = 0 := by omega
    rw [none, pow_zero, one_div, ← zpow_natCast, ← zpow_neg, Int.toNat_of_nonneg (by omega),
      neg_neg]

section Interval

variable {b : Binary} {d : Decimal}

-- Both sides are whole numbers only after they have been multiplied by the same power.
theorem holds_iff :
    b.holds d = true ↔
      if b.mantissa % 2 = 0 then
        b.quarters.1 * 2 ^ b.exponent ≤ 4 * d.value ∧ 4 * d.value ≤ b.quarters.2 * 2 ^ b.exponent
      else
        b.quarters.1 * 2 ^ b.exponent < 4 * d.value ∧
          4 * d.value < b.quarters.2 * 2 ^ b.exponent := by
  let common : ℚ := 2 ^ (-b.exponent).toNat * 10 ^ (-d.exponent).toNat
  have positive : 0 < common := by positivity
  have unit (n : Nat) : ((n * (2 ^ b.exponent.toNat * 10 ^ (-d.exponent).toNat) : Nat) : ℚ) =
      n * 2 ^ b.exponent * common := by
    rw [zpow_parts 2 b.exponent]
    push_cast
    field_simp
    ring
  have scaled : ((4 * d.digits * 10 ^ d.exponent.toNat * 2 ^ (-b.exponent).toNat : Nat) : ℚ) =
      4 * d.value * common := by
    rw [Decimal.value, zpow_parts 10 d.exponent]
    push_cast
    field_simp
    ring
  simp only [Binary.holds, Nat.pow_eq]
  split
  · simp only [Bool.and_eq_true, decide_eq_true_eq, ← @Nat.cast_le ℚ, unit, scaled,
      mul_le_mul_iff_left₀ positive]
  · simp only [Bool.and_eq_true, decide_eq_true_eq, ← @Nat.cast_lt ℚ, unit, scaled,
      mul_lt_mul_iff_left₀ positive]

theorem Binary.Valid.closeBelow_iff (valid : b.Valid) :
    b.closeBelow = true ↔ b.mantissa = 2 ^ 52 ∧ b.exponent ≠ -1074 := by
  rw [valid.close]
  simp [hiddenBit]

theorem Binary.Valid.quarters (valid : b.Valid) :
    (b.quarters.1 : ℚ) = 4 * b.mantissa - (if b.closeBelow then 1 else 2) ∧
      (b.quarters.2 : ℚ) = 4 * b.mantissa + 2 := by
  have positive := valid.positive
  rw [Binary.quarters]
  refine ⟨?_, by push_cast; rfl⟩
  split
  · rw [Nat.cast_sub (by omega)]
    push_cast
    rfl
  · rw [Nat.cast_sub (by omega)]
    push_cast
    rfl

theorem within_of_holds (valid : b.Valid) (holds : b.holds d = true) :
    Within b.mantissa b.exponent d.value := by
  obtain ⟨low, high⟩ := valid.quarters
  have unit : (0 : ℚ) < 2 ^ b.exponent := by positivity
  rw [holds_iff, low, high] at holds
  have wide : (4 * b.mantissa - (if b.closeBelow then 1 else 2)) * 2 ^ b.exponent ≤ 4 * d.value ∧
      4 * d.value ≤ (4 * b.mantissa + 2) * 2 ^ b.exponent := by
    split at holds
    · exact holds
    · exact ⟨holds.1.le, holds.2.le⟩
  have apart : (4 : ℚ) * b.mantissa - 2 ≤ 4 * b.mantissa - (if b.closeBelow then 1 else 2) := by
    split <;> linarith
  refine ⟨⟨?_, ?_, ?_⟩, ?_⟩
  · rw [le_div_iff₀ unit]
    nlinarith [wide.1]
  · rw [div_le_iff₀ unit]
    linarith [wide.2]
  · intro tie
    by_contra odd
    rw [if_neg odd] at holds
    rcases tie with below | above
    · rw [div_eq_iff unit.ne'] at below
      nlinarith [holds.1]
    · rw [div_eq_iff unit.ne'] at above
      linarith [holds.2]
  · intro least normal
    have close := valid.closeBelow_iff.2 ⟨least, normal⟩
    have near := wide.1
    rw [close, if_pos rfl, least] at near
    rw [le_div_iff₀ unit]
    push_cast at near
    linarith

theorem holds_of_near (valid : b.Valid)
    (above : (4 * b.mantissa - (if b.closeBelow then 1 else 2)) * 2 ^ b.exponent < 4 * d.value)
    (below : 4 * d.value < (4 * b.mantissa + 2) * 2 ^ b.exponent) : b.holds d = true := by
  obtain ⟨low, high⟩ := valid.quarters
  rw [holds_iff, low, high]
  split
  · exact ⟨above.le, below.le⟩
  · exact ⟨above, below⟩

theorem ratio_value (b : Binary) :
    0 < b.ratio.2 ∧ (b.ratio.1 : ℚ) / b.ratio.2 = b.value := by
  simp only [Binary.ratio, Nat.pow_eq]
  refine ⟨by positivity, ?_⟩
  rw [Binary.value, zpow_parts 2 b.exponent]
  push_cast
  ring

end Interval

section Search

variable {b : Binary} {d : Decimal} {tie : Tie} {exponent : Int}

def Binary.wholeUnits (b : Binary) (exponent : Int) : Nat :=
  b.ratio.1 * Nat.pow 10 (-exponent).toNat / (b.ratio.2 * Nat.pow 10 exponent.toNat)

theorem wholeUnits_spec (b : Binary) (exponent : Int) :
    b.wholeUnits exponent * 10 ^ exponent ≤ b.value ∧
      b.value < (b.wholeUnits exponent + 1) * 10 ^ exponent := by
  obtain ⟨positive, value⟩ := ratio_value b
  have bottom : 0 < b.ratio.2 * Nat.pow 10 exponent.toNat :=
    Nat.mul_pos positive (Nat.pow_pos (by decide))
  have unit : (0 : ℚ) < 10 ^ exponent := by positivity
  have quotient : ((b.ratio.1 * Nat.pow 10 (-exponent).toNat : Nat) : ℚ) /
      ((b.ratio.2 * Nat.pow 10 exponent.toNat : Nat) : ℚ) = b.value / 10 ^ exponent := by
    rw [← value, zpow_parts 10 exponent]
    push_cast [Nat.pow_eq]
    field_simp
  have bottom : (0 : ℚ) < (b.ratio.2 * Nat.pow 10 exponent.toNat : Nat) := by exact_mod_cast bottom
  constructor
  · rw [← le_div_iff₀ unit, ← quotient]
    exact Nat.cast_div_le
  · rw [← div_lt_iff₀ unit, ← quotient, div_lt_iff₀ bottom]
    have less := Nat.lt_mul_div_succ (b.ratio.1 * Nat.pow 10 (-exponent).toNat)
      (Nat.cast_pos.1 bottom)
    rw [mul_comm (_ + 1 : ℚ)]
    exact_mod_cast less

theorem wholeUnits_neg (b : Binary) (places : Nat) :
    b.wholeUnits (-places) = b.ratio.1 * Nat.pow 10 places / b.ratio.2 := by
  have none : (-(places : Int)).toNat = 0 := by omega
  have many : (- -(places : Int)).toNat = places := by omega
  rw [Binary.wholeUnits, none, many]
  exact congrArg _ (Nat.mul_one _)

theorem nearest?_eq_some (found : b.nearest? tie exponent = some d) :
    b.holds d = true ∧ d.exponent = exponent ∧ d.digits ≤ b.wholeUnits exponent + 1 := by
  simp only [Binary.nearest?] at found
  split at found
  next => cases found
  next low _ =>
    cases found
    exact ⟨low, rfl, Nat.le_succ _⟩
  next _ high =>
    cases found
    exact ⟨high, rfl, le_rfl⟩
  next low high =>
    split at found
    next =>
      cases found
      exact ⟨low, rfl, Nat.le_succ _⟩
    next =>
      split at found
      next =>
        cases found
        exact ⟨high, rfl, le_rfl⟩
      next =>
        cases tie with
        | up =>
          cases found
          exact ⟨high, rfl, le_rfl⟩
        | even =>
          simp only at found
          split at found
          · cases found
            exact ⟨low, rfl, Nat.le_succ _⟩
          · cases found
            exact ⟨high, rfl, le_rfl⟩

theorem nearest?_isSome
    (holds : b.holds ⟨b.wholeUnits exponent, exponent⟩ = true ∨
      b.holds ⟨b.wholeUnits exponent + 1, exponent⟩ = true) :
    (b.nearest? tie exponent).isSome = true := by
  simp only [Binary.nearest?]
  split
  next low high =>
    rcases holds with held | held
    · exact absurd (low.symm.trans held) Bool.false_ne_true
    · exact absurd (high.symm.trans held) Bool.false_ne_true
  all_goals repeat' split
  all_goals rfl

-- Sixteen places behind the first digit are closer to each other than two doubles are there.
theorem holds_seventeen (valid : b.Valid) (fine : 10 ^ (exponent + 16) ≤ b.value) :
    b.holds ⟨b.wholeUnits exponent, exponent⟩ = true ∨
      b.holds ⟨b.wholeUnits exponent + 1, exponent⟩ = true := by
  obtain ⟨low, high⟩ := wholeUnits_spec b exponent
  have unit : (0 : ℚ) < 2 ^ b.exponent := by positivity
  have place : (0 : ℚ) < 10 ^ exponent := by positivity
  have places : (10 : ℚ) ^ (exponent + 16) = 10 ^ exponent * 10 ^ 16 :=
    zpow_add₀ (by norm_num) exponent 16
  rw [places] at fine
  have fits : (b.mantissa : ℚ) + 1 ≤ 2 ^ 53 := by exact_mod_cast valid.stored.fits
  have next : ((b.wholeUnits exponent + 1 : Nat) : ℚ) = b.wholeUnits exponent + 1 := by
    push_cast
    rfl
  have share : (if b.closeBelow then (1 : ℚ) else 2) = 1 ∧ (b.mantissa : ℚ) = 2 ^ 52 ∨
      (if b.closeBelow then (1 : ℚ) else 2) = 2 := by
    cases close : b.closeBelow with
    | false => exact .inr rfl
    | true =>
      obtain ⟨least, -⟩ := valid.closeBelow_iff.1 close
      exact .inl ⟨rfl, by rw [least]; norm_num⟩
  rw [Binary.value] at *
  by_cases near : (4 * b.mantissa - (if b.closeBelow then (1 : ℚ) else 2)) * 2 ^ b.exponent <
      4 * (b.wholeUnits exponent * 10 ^ exponent)
  · left
    refine holds_of_near valid near ?_
    rw [Decimal.value]
    linarith
  · right
    refine holds_of_near valid ?_ ?_
    · rw [Decimal.value, next]
      rcases share with ⟨one, -⟩ | two
      · rw [one]
        linarith
      · rw [two]
        linarith
    · rw [Decimal.value, next]
      rcases share with ⟨one, power⟩ | two
      · rw [one] at near
        rw [power] at fine high near ⊢
        linarith
      · rw [two] at near
        have most : (b.mantissa : ℚ) * 2 ^ b.exponent ≤ (2 ^ 53 - 1) * 2 ^ b.exponent := by
          gcongr
          linarith
        linarith

theorem digitCount_spec {n : Nat} (positive : 0 < n) :
    10 ^ (digitCount n - 1) ≤ n ∧ n < 10 ^ digitCount n := by
  have some : 0 < digitCount n := Nat.length_toDigits_pos
  refine ⟨?_, (Nat.length_toDigits_le_iff (by decide) some).1 le_rfl⟩
  by_contra less
  rcases Nat.eq_zero_or_pos (digitCount n - 1) with none | shorter
  · rw [none] at less
    omega
  · have fewer := (Nat.length_toDigits_le_iff (by decide) shorter).2 (not_le.1 less)
    change digitCount n ≤ digitCount n - 1 at fewer
    omega

-- No double is so small that nothing of it is left among 400 places.
theorem leadingExponent_spec (valid : b.Valid) :
    10 ^ leadingExponent b.ratio.1 b.ratio.2 ≤ b.value ∧
      b.value < 10 ^ (leadingExponent b.ratio.1 b.ratio.2 + 1) := by
  obtain ⟨places, many⟩ : ∃ places : Nat, 400 = places := ⟨_, rfl⟩
  obtain ⟨n, units⟩ : ∃ n, b.wholeUnits (-places) = n := ⟨_, rfl⟩
  have lead : leadingExponent b.ratio.1 b.ratio.2 = digitCount n - places - 1 := by
    rw [leadingExponent, many, ← wholeUnits_neg, units]
    omega
  obtain ⟨low, high⟩ := wholeUnits_spec b (-places)
  rw [units] at low high
  have unit : (0 : ℚ) < 10 ^ (-places : Int) := by positivity
  have positive : 0 < n := by
    by_contra none
    have none : (n : ℚ) = 0 := by exact_mod_cast (by omega : n = 0)
    have value : (2 : ℚ) ^ (-1074 : Int) ≤ b.value := by
      have least : (2 : ℚ) ^ (-1074 : Int) ≤ 2 ^ b.exponent :=
        zpow_le_zpow_right₀ (by norm_num) valid.stored.least
      have one : (1 : ℚ) ≤ b.mantissa := by exact_mod_cast valid.positive
      exact least.trans (le_mul_of_one_le_left (by positivity) one)
    have tiny : (10 : ℚ) ^ (-places : Int) ≤ 2 ^ (-1074 : Int) := by
      rw [zpow_neg, zpow_neg]
      apply inv_anti₀ (by positivity)
      calc (2 : ℚ) ^ (1074 : Int) ≤ 2 ^ (3 * places : Int) :=
            zpow_le_zpow_right₀ (by norm_num) (by omega)
        _ = (2 ^ (3 : Int)) ^ (places : Int) := zpow_mul ..
        _ ≤ 10 ^ (places : Int) := zpow_le_zpow_left₀ (by omega) (by norm_num) (by norm_num)
    rw [none] at high
    linarith
  obtain ⟨least, most⟩ := digitCount_spec positive
  have some : 0 < digitCount n := Nat.length_toDigits_pos
  have least : (10 : ℚ) ^ ((digitCount n - 1 : Nat) : Int) ≤ n := by exact_mod_cast least
  have most : (n : ℚ) + 1 ≤ 10 ^ ((digitCount n : Nat) : Int) := by exact_mod_cast most
  rw [lead]
  constructor
  · have split : (digitCount n : Int) - places - 1 =
        ((digitCount n - 1 : Nat) : Int) + -places := by omega
    rw [split, zpow_add₀ (by norm_num)]
    exact (mul_le_mul_of_nonneg_right least unit.le).trans low
  · have split : (digitCount n : Int) - places - 1 + 1 = digitCount n + -places := by omega
    rw [split, zpow_add₀ (by norm_num)]
    exact high.trans_le (mul_le_mul_of_nonneg_right most unit.le)

theorem shortest_found (valid : b.Valid) (tie : Tie) :
    ∃ found : Decimal, b.shortest tie = found.withoutTrailingZeros ∧ b.holds found = true ∧
      found.digits ≤ 10 ^ 17 := by
  obtain ⟨lead_low, lead_high⟩ := leadingExponent_spec valid
  let lead := leadingExponent b.ratio.1 b.ratio.2
  let search (places : Nat) : Option Decimal := b.nearest? tie (lead - places)
  have reached : ((List.range 17).findSome? search).isSome = true := by
    rw [List.findSome?_isSome_iff]
    refine ⟨16, by simp, nearest?_isSome (holds_seventeen valid ?_)⟩
    rwa [Nat.cast_ofNat, sub_add_cancel]
  obtain ⟨found, first⟩ := Option.isSome_iff_exists.1 reached
  obtain ⟨places, listed, nearest⟩ := List.exists_of_findSome?_eq_some first
  obtain ⟨holds, -, few⟩ := nearest?_eq_some nearest
  refine ⟨found, ?_, holds, few.trans ?_⟩
  · change (((List.range 17).findSome? search).getD _).withoutTrailingZeros = _
    rw [first, Option.getD_some]
  · obtain ⟨low, -⟩ := wholeUnits_spec b (lead - places)
    have within : places ≤ 16 := by
      have := List.mem_range.1 listed
      omega
    have place : (0 : ℚ) < 10 ^ (lead - places) := by positivity
    have split : (10 : ℚ) ^ (lead + 1) = 10 ^ (places + 1) * 10 ^ (lead - places) := by
      rw [← zpow_natCast, ← zpow_add₀ (by norm_num)]
      congr 1
      push_cast
      ring
    have most : (b.wholeUnits (lead - places) : ℚ) < 10 ^ (places + 1) := by
      refine lt_of_mul_lt_mul_right (low.trans_lt ?_) place.le
      rw [← split]
      exact lead_high
    have most : b.wholeUnits (lead - places) < 10 ^ (places + 1) := by exact_mod_cast most
    exact most.trans_le (Nat.pow_le_pow_right (by decide) (by omega))

end Search

section Zeros

-- The digits of a number end with those of its last digit, so trailing zeros are counted off it.
theorem pow_trailing_dvd (n : Nat) :
    10 ^ ((Nat.toDigits 10 n).reverse.takeWhile (· == '0')).length ∣ n := by
  induction n using Nat.strongRecOn with
  | ind n ih =>
    have digit : ∀ digit, digit < 10 → (Nat.digitChar digit == '0') = decide (digit = 0) := by
      decide
    by_cases small : n < 10
    · rw [Nat.toDigits_of_lt_base small, List.reverse_singleton, List.takeWhile_cons, digit n small]
      by_cases zero : n = 0
      · simp [zero]
      · simp [zero]
    · rw [Nat.toDigits_of_base_le (by decide) (Nat.not_lt.1 small), List.reverse_append,
        List.reverse_singleton, List.singleton_append, List.takeWhile_cons,
        digit (n % 10) (Nat.mod_lt n (by decide))]
      by_cases zero : n % 10 = 0
      · have divided := Nat.mul_dvd_mul_left 10 (ih (n / 10) (by omega))
        rw [Nat.mul_div_cancel' (Nat.dvd_of_mod_eq_zero zero)] at divided
        simpa [zero, Nat.pow_succ'] using divided
      · simp [zero]

theorem withoutTrailingZeros_value (d : Decimal) :
    d.withoutTrailingZeros.value = d.value ∧ d.withoutTrailingZeros.digits ≤ d.digits := by
  simp only [Decimal.withoutTrailingZeros, Decimal.value, Nat.pow_eq]
  have divides := pow_trailing_dvd d.digits
  generalize ((Nat.toDigits 10 d.digits).reverse.takeWhile (· == '0')).length = zeros at divides
  refine ⟨?_, Nat.div_le_self _ _⟩
  have power : ((10 ^ zeros : Nat) : ℚ) ≠ 0 := by positivity
  rw [Nat.cast_div divides power, zpow_add₀ (by norm_num), zpow_natCast]
  push_cast
  field_simp

end Zeros

theorem shortest_spec {b : Binary} (valid : b.Valid) (tie : Tie) :
    Within b.mantissa b.exponent (b.shortest tie).value ∧ (b.shortest tie).digits ≤ 10 ^ 17 := by
  obtain ⟨found, same, holds, few⟩ := shortest_found valid tie
  obtain ⟨value, fewer⟩ := withoutTrailingZeros_value found
  rw [same, value]
  exact ⟨within_of_holds valid holds, fewer.trans few⟩

end Spellcraft.Number
