import Spellcraft.Proofs.Number.Order

/-!
Rounding to the doubles. Of what is cut from a mantissa so much is remembered that the mantissa
becomes the whole number nearest to the exact value, the even one of two.
-/

set_option autoImplicit false

namespace Spellcraft.Number

open Float.Model (UnpackedFloat Format totalExponent)
open Float.Model.UnpackedFloat

/-- The exact value of what was cut to a mantissa, in units of the last place that is left. -/
def Stands : Accuracy → Nat → ℚ → Prop
  | .exact, mantissa, q => q = mantissa
  | .inexact .lt, mantissa, q => mantissa < q ∧ q < mantissa + 1 / 2
  | .inexact .eq, mantissa, q => q = mantissa + 1 / 2
  | .inexact .gt, mantissa, q => mantissa + 1 / 2 < q ∧ q < mantissa + 1

structure Nearest (n : Nat) (q : ℚ) : Prop where
  above : n - 1 / 2 ≤ q
  below : q ≤ n + 1 / 2
  tie : q = n - 1 / 2 ∨ q = n + 1 / 2 → n % 2 = 0

theorem power_add (left right : Int) : (2 : ℚ) ^ (left + right) = 2 ^ left * 2 ^ right :=
  zpow_add₀ two_ne_zero left right

theorem power_succ (exponent : Int) : (2 : ℚ) ^ (exponent + 1) = 2 * 2 ^ exponent := by
  rw [power_add, zpow_one, mul_comm]

section Cutting

variable {extended : ExtendedMantissa} {accuracy : Accuracy} {mantissa n m : Nat} {q : ℚ}

theorem Stands.le (stands : Stands accuracy mantissa q) : mantissa ≤ q := by
  rcases accuracy with _ | (_ | _ | _)
  · exact (show q = mantissa from stands).ge
  · exact stands.1.le
  · have half : q = mantissa + 1 / 2 := stands
    linarith
  · have above : (mantissa : ℚ) + 1 / 2 < q := stands.1
    linarith

theorem Stands.lt (stands : Stands accuracy mantissa q) : q < mantissa + 1 := by
  rcases accuracy with _ | (_ | _ | _)
  · have exact : q = mantissa := stands
    linarith
  · have below : q < mantissa + 1 / 2 := stands.2
    linarith
  · have half : q = mantissa + 1 / 2 := stands
    linarith
  · exact stands.2

theorem Nearest.mono {p : ℚ} (lower : Nearest n q) (higher : Nearest m p) (below : q ≤ p) :
    n ≤ m := by
  by_contra more
  have next : (m : ℚ) + 1 ≤ n := by exact_mod_cast not_le.1 more
  have left := higher.below
  have right := lower.above
  -- Both values lie half way between the two numbers, which are even then and next to each other.
  have even := higher.tie (.inr (by linarith))
  have even' := lower.tie (.inl (by linarith))
  have close : (n : ℚ) ≤ m + 1 := by linarith
  have close : n ≤ m + 1 := by exact_mod_cast close
  omega

theorem Nearest.unique (first : Nearest n q) (second : Nearest m q) : n = m :=
  le_antisymm (first.mono second le_rfl) (second.mono first le_rfl)

theorem Nearest.self (n : Nat) : Nearest n n where
  above := by linarith
  below := by linarith
  tie := by rintro (half | half) <;> linarith

theorem roundedMantissa_nearest (stands : Stands extended.accuracy extended.mantissa q) :
    Nearest extended.roundedMantissa q := by
  obtain ⟨mantissa, _ | _, _ | _⟩ := extended
  · obtain rfl : q = mantissa := stands
    exact .self mantissa
  · obtain ⟨above, below⟩ : (mantissa : ℚ) < q ∧ q < mantissa + 1 / 2 := stands
    exact ⟨by change (mantissa : ℚ) - 1 / 2 ≤ q; linarith, below.le, by
      change q = (mantissa : ℚ) - 1 / 2 ∨ q = mantissa + 1 / 2 → _
      rintro (half | half) <;> linarith⟩
  · obtain rfl : q = mantissa + 1 / 2 := stands
    change Nearest (mantissa + mantissa % 2) _
    rcases Nat.mod_two_eq_zero_or_one mantissa with even | odd
    · rw [even, Nat.add_zero]
      exact ⟨by linarith, le_rfl, fun _ => even⟩
    · rw [odd]
      exact ⟨by push_cast; linarith, by push_cast; linarith, fun _ => by omega⟩
  · obtain ⟨above, below⟩ : (mantissa : ℚ) + 1 / 2 < q ∧ q < mantissa + 1 := stands
    change Nearest (mantissa + 1) q
    refine ⟨?_, ?_, ?_⟩ <;> push_cast
    · linarith
    · linarith
    · rintro (half | half) <;> linarith

-- The last place goes over into the round bit, and what stood there into the sticky one.
theorem shiftRightOne_stands (stands : Stands extended.accuracy extended.mantissa q) :
    Stands extended.shiftRightOne.accuracy extended.shiftRightOne.mantissa (q / 2) := by
  obtain ⟨mantissa, roundBit, stickyBit⟩ := extended
  obtain ⟨half, rfl | rfl⟩ : ∃ half, mantissa = 2 * half ∨ mantissa = 2 * half + 1 :=
    ⟨mantissa / 2, by omega⟩
  · have halved : 2 * half / 2 = half := by omega
    cases roundBit <;> cases stickyBit <;>
      simp only [ExtendedMantissa.accuracy, Stands, Nat.cast_mul, Nat.cast_ofNat] at stands <;>
      simp [ExtendedMantissa.shiftRightOne, ExtendedMantissa.accuracy, Stands, halved]
    case false.false => linarith
    case true.false => constructor <;> linarith
    all_goals exact ⟨by linarith [stands.1], by linarith [stands.2]⟩
  · have halved : (2 * half + 1) / 2 = half := by omega
    have last : (2 * half + 1) % 2 = 1 := by omega
    cases roundBit <;> cases stickyBit <;>
      simp only [ExtendedMantissa.accuracy, Stands, Nat.cast_add, Nat.cast_mul, Nat.cast_ofNat,
        Nat.cast_one] at stands <;>
      simp [ExtendedMantissa.shiftRightOne, ExtendedMantissa.accuracy, Stands, halved, last]
    case false.false => linarith
    case true.false => constructor <;> linarith
    all_goals exact ⟨by linarith [stands.1], by linarith [stands.2]⟩

theorem shiftRight_stands (stands : Stands extended.accuracy extended.mantissa q) (count : Nat) :
    Stands (extended >>> count).accuracy (extended >>> count).mantissa (q / 2 ^ count) := by
  change Stands (Nat.repeat ExtendedMantissa.shiftRightOne count extended).accuracy
    (Nat.repeat ExtendedMantissa.shiftRightOne count extended).mantissa _
  induction count with
  | zero =>
    rw [pow_zero, div_one]
    exact stands
  | succ count ih =>
    rw [pow_succ, ← div_div]
    exact shiftRightOne_stands ih

theorem ofMantissaAndAccuracy_accuracy (mantissa : Nat) (accuracy : Accuracy) :
    (ExtendedMantissa.ofMantissaAndAccuracy mantissa accuracy).accuracy = accuracy ∧
      (ExtendedMantissa.ofMantissaAndAccuracy mantissa accuracy).mantissa = mantissa := by
  rcases accuracy with _ | (_ | _ | _) <;> exact ⟨rfl, rfl⟩

end Cutting

structure Scale (q : ℚ) (exponent : Int) : Prop where
  least : -1074 ≤ exponent
  fits : q < 2 ^ (exponent + 53)
  full : 2 ^ (exponent + 52) ≤ q ∨ exponent = -1074

-- So many last places, where 53 places may have become 54.
def rounded (sign : Sign) (n : Nat) (exponent : Int) : UnpackedFloat :=
  if zero : n = 0 then .zero sign
  else if n < 2 ^ 53 then .finite sign n exponent (Nat.pos_of_ne_zero zero)
  else .finite sign (2 ^ 52) (exponent + 1) (by decide)

/-- The value is rounded to the nearest of the doubles around it. -/
def Rounds (sign : Sign) (q : ℚ) (value : UnpackedFloat) : Prop :=
  ∃ exponent n, Scale q exponent ∧ Nearest n (q / 2 ^ exponent) ∧ value = rounded sign n exponent

section Scaling

variable {sign : Sign} {mantissa n : Nat} {exponent other : Int} {accuracy : Accuracy} {q : ℚ}
  {value last : UnpackedFloat}

theorem Scale.mono {p : ℚ} (lower : Scale q exponent) (higher : Scale p other) (below : q ≤ p) :
    exponent ≤ other := by
  by_contra less
  rcases lower.full with full | least
  · have ascends : (2 : ℚ) ^ (other + 53) ≤ 2 ^ (exponent + 52) :=
      zpow_le_zpow_right₀ (by norm_num) (by omega)
    linarith [higher.fits]
  · have := higher.least
    omega

theorem Scale.unique (first : Scale q exponent) (second : Scale q other) : exponent = other :=
  le_antisymm (first.mono second le_rfl) (second.mono first le_rfl)

theorem Rounds.unique (first : Rounds sign q value) (second : Rounds sign q last) :
    value = last := by
  obtain ⟨exponent, n, scale, nearest, rfl⟩ := first
  obtain ⟨other, m, scale', nearest', rfl⟩ := second
  obtain rfl := scale.unique scale'
  rw [nearest.unique nearest']

theorem targetExponent_eq (mantissa : Nat) (exponent : Int) :
    Format.binary64.targetExponent (totalExponent mantissa exponent) =
      max (mantissa.log2 + exponent - 52) (-1074) := by
  change max ((mantissa.log2 : Int) + 1 + exponent - (53 : Nat)) (3 - 2 ^ 10 - (53 : Nat)) = _
  omega

theorem log2_lt {bits : Nat} (fits : mantissa < 2 ^ bits) (some : 0 < bits) :
    mantissa.log2 < bits := by
  by_cases zero : mantissa = 0
  · rwa [zero, Nat.log2_zero]
  · exact (Nat.log2_lt zero).2 fits

theorem shift_kept (fits : n < 2 ^ 53) (least : -1074 ≤ exponent) :
    shiftToTargetExponent .binary64 n exponent .exact = (⟨n, false, false⟩, exponent) := by
  have places := log2_lt fits (by decide)
  have stays : (max ((n.log2 : Int) + exponent - 52) (-1074) - exponent).toNat = 0 := by omega
  rw [shiftToTargetExponent, targetExponent_eq, shiftToExponent, stays]
  exact Prod.ext rfl (Int.add_zero exponent)

theorem shift_carried (least : -1074 ≤ exponent) :
    shiftToTargetExponent .binary64 (2 ^ 53) exponent .exact =
      (⟨2 ^ 52, false, false⟩, exponent + 1) := by
  have places : (2 ^ 53 : Nat).log2 = 53 := Nat.log2_two_pow
  have moves :
      (max (((2 ^ 53 : Nat).log2 : Int) + exponent - 52) (-1074) - exponent).toNat = 1 := by
    rw [places]
    omega
  rw [shiftToTargetExponent, targetExponent_eq, shiftToExponent, moves]
  rfl

theorem scale_shifted (fine : 2 ^ 52 ≤ mantissa ∨ exponent ≤ -1074)
    (stands : Stands accuracy mantissa (q / 2 ^ exponent)) :
    exponent ≤ max (mantissa.log2 + exponent - 52) (-1074) ∧
      Scale q (max (mantissa.log2 + exponent - 52) (-1074)) := by
  have unit : (0 : ℚ) < 2 ^ exponent := by positivity
  have above : mantissa * 2 ^ exponent ≤ q := (le_div_iff₀ unit).1 stands.le
  have below : q < (mantissa + 1) * 2 ^ exponent := (div_lt_iff₀ unit).1 stands.lt
  have raised : exponent ≤ max (mantissa.log2 + exponent - 52) (-1074) := by
    rcases fine with many | low
    · have := (Nat.le_log2 (by omega)).2 many
      omega
    · omega
  refine ⟨raised, by omega, ?_, ?_⟩
  · have places : (mantissa : ℚ) + 1 ≤ 2 ^ ((mantissa.log2 : Int) + 1) := by
      have places : mantissa + 1 ≤ 2 ^ (mantissa.log2 + 1) := Nat.lt_log2_self
      exact_mod_cast places
    calc q < (mantissa + 1) * 2 ^ exponent := below
      _ ≤ 2 ^ ((mantissa.log2 : Int) + 1) * 2 ^ exponent := by gcongr
      _ = 2 ^ ((mantissa.log2 : Int) + 1 + exponent) := (power_add _ _).symm
      _ ≤ _ := zpow_le_zpow_right₀ (by norm_num) (by omega)
  · by_cases lowest : max ((mantissa.log2 : Int) + exponent - 52) (-1074) = -1074
    · exact .inr lowest
    · left
      have positive : mantissa ≠ 0 := by
        rintro rfl
        rw [Nat.log2_zero] at lowest
        omega
      have places : (2 : ℚ) ^ (mantissa.log2 : Int) ≤ mantissa := by
        exact_mod_cast Nat.log2_self_le positive
      calc (2 : ℚ) ^ (max ((mantissa.log2 : Int) + exponent - 52) (-1074) + 52)
          ≤ 2 ^ ((mantissa.log2 : Int) + exponent) :=
            zpow_le_zpow_right₀ (by norm_num) (by omega)
        _ = 2 ^ (mantissa.log2 : Int) * 2 ^ exponent := power_add _ _
        _ ≤ mantissa * 2 ^ exponent := by gcongr
        _ ≤ q := above

theorem Nearest.le_carried (scale : Scale q exponent) (nearest : Nearest n (q / 2 ^ exponent)) :
    n ≤ 2 ^ 53 := by
  have unit : (0 : ℚ) < 2 ^ exponent := by positivity
  have fits : q / 2 ^ exponent < 2 ^ 53 := by
    rw [div_lt_iff₀ unit]
    exact scale.fits.trans_le (by rw [add_comm]; exact (power_add 53 exponent).le)
  have whole : (n : ℚ) < 2 ^ 53 + 1 := by linarith [nearest.above]
  have whole : n < 2 ^ 53 + 1 := by exact_mod_cast whole
  omega

theorem roundWithAccuracy_rounds (sign : Sign) (fine : 2 ^ 52 ≤ mantissa ∨ exponent ≤ -1074)
    (stands : Stands accuracy mantissa (q / 2 ^ exponent)) :
    Rounds sign q (roundWithAccuracy .binary64 sign mantissa exponent accuracy) := by
  obtain ⟨raised, scale⟩ := scale_shifted fine stands
  obtain ⟨kept, whole⟩ := ofMantissaAndAccuracy_accuracy mantissa accuracy
  let last := max ((mantissa.log2 : Int) + exponent - 52) (-1074)
  let count := (last - exponent).toNat
  let first := ExtendedMantissa.ofMantissaAndAccuracy mantissa accuracy >>> count
  have arrives : exponent + count = last := by omega
  have cut : shiftToTargetExponent .binary64 mantissa exponent accuracy = (first, last) := by
    rw [shiftToTargetExponent, targetExponent_eq, shiftToExponent]
    exact Prod.ext rfl arrives
  have nearest : Nearest first.roundedMantissa (q / 2 ^ last) := by
    have moved : q / 2 ^ last = q / 2 ^ exponent / 2 ^ count := by
      rw [← arrives, zpow_add₀ (by norm_num), zpow_natCast, div_div]
    rw [moved]
    refine roundedMantissa_nearest (shiftRight_stands ?_ count)
    rwa [kept, whole]
  refine ⟨last, first.roundedMantissa, scale, nearest, ?_⟩
  have most := nearest.le_carried scale
  rw [roundWithAccuracy, cut]
  simp only [rounded]
  by_cases fits : first.roundedMantissa < 2 ^ 53
  · rw [shift_kept fits scale.least]
    simp only [fits, if_true]
    rfl
  · have carries : first.roundedMantissa = 2 ^ 53 := by omega
    rw [carries, shift_carried scale.least]
    rfl

end Scaling

abbrev repack (value : UnpackedFloat) : UnpackedFloat :=
  unpack .binary64 (pack .binary64 value)

/-- The mantissa and the exponent of a double: 53 places, or fewer above the last exponent. -/
structure Stored (mantissa : Nat) (exponent : Int) : Prop where
  fits : mantissa < 2 ^ 53
  full : 2 ^ 52 ≤ mantissa ∨ exponent = -1074
  least : -1074 ≤ exponent
  greatest : exponent ≤ 971

section Storing

variable {sign : Sign} {mantissa n : Nat} {exponent : Int} {positive : 0 < mantissa} {q : ℚ}
  {value : UnpackedFloat}

theorem toNat_hidden (mantissa : BitVec 52) :
    (1#1 ++ mantissa).toNat = 2 ^ 52 + mantissa.toNat := by
  have apart := Nat.two_pow_add_eq_or_of_lt mantissa.isLt 1
  rw [Nat.mul_one] at apart
  rw [BitVec.toNat_append, apart]
  rfl

theorem finite_congr {mantissa' : Nat} {exponent' : Int} {positive' : 0 < mantissa'}
    (same : mantissa = mantissa') (same' : exponent = exponent') :
    UnpackedFloat.finite sign mantissa exponent positive =
      .finite sign mantissa' exponent' positive' := by
  subst same same'
  rfl

theorem unpack_normal {stored : BitVec 11} (fraction : BitVec 52) (ordinary : stored ≠ -1#11)
    (normal : stored ≠ 0#11) (mantissas : 2 ^ 52 + fraction.toNat = mantissa)
    (exponents : (stored.toNat : Int) - 1075 = exponent) :
    unpack .binary64 (packComponents .binary64 sign stored fraction) =
      .finite sign mantissa exponent positive := by
  simp only [unpack, unpackExponent_packComponents, unpackMantissa_packComponents,
    unpackSign_packComponents, Sign.ofBitVec_toBitVec, if_neg ordinary, if_neg normal]
  refine finite_congr ((toNat_hidden fraction).trans mantissas) ?_
  change (stored.toNat : Int) - (1023 + 52) = exponent
  omega

theorem unpack_subnormal {fraction : BitVec 52} (same : fraction.toNat = mantissa) :
    unpack .binary64 (packComponents .binary64 sign 0#11 fraction) =
      .finite sign mantissa (-1074) positive := by
  have ordinary : (0#11 : BitVec 11) ≠ -1#11 := by decide
  have shown : fraction ≠ 0#52 := by
    rintro rfl
    exact positive.ne same
  simp only [unpack, unpackExponent_packComponents, unpackMantissa_packComponents,
    unpackSign_packComponents, Sign.ofBitVec_toBitVec, if_neg ordinary, if_true, dif_neg shown]
  exact finite_congr same rfl

theorem repack_stored (stored : Stored mantissa exponent) :
    repack (.finite sign mantissa exponent positive) =
      .finite sign mantissa exponent positive := by
  have fits := stored.fits
  have least := stored.least
  have greatest := stored.greatest
  let biased := (exponent + 1023 + 52).toNat
  simp only [repack, pack]
  split
  next great =>
    change 2048 ≤ biased + 1 at great
    omega
  next small =>
    split
    next full =>
      change mantissa.log2 + 1 = 53 at full
      have places : 2 ^ 52 ≤ mantissa := by
        have := Nat.log2_self_le positive.ne'
        rwa [Nat.add_right_cancel full] at this
      have value : (BitVec.ofNat 11 biased).toNat = biased := Nat.mod_eq_of_lt (by omega)
      have fraction : (BitVec.ofNat 52 mantissa).toNat = mantissa % 2 ^ 52 := rfl
      have exponents : ((BitVec.ofNat 11 biased).toNat : Int) - 1075 = exponent := by omega
      refine unpack_normal _ ?_ ?_ (by omega) exponents
      · intro same
        have last : biased = 2047 := value.symm.trans (congrArg BitVec.toNat same)
        omega
      · intro same
        have first : biased = 0 := value.symm.trans (congrArg BitVec.toNat same)
        omega
    next short =>
      change mantissa.log2 + 1 ≠ 53 at short
      have few : mantissa < 2 ^ 52 := by
        have := log2_lt fits (by decide)
        exact (Nat.log2_lt positive.ne').1 (by omega)
      obtain rfl := stored.full.resolve_left (by omega)
      exact unpack_subnormal (Nat.mod_eq_of_lt few)

-- Without its sign; what is not finite counts as nothing.
def size : UnpackedFloat → ℚ
  | .finite _ mantissa exponent _ => mantissa * 2 ^ exponent
  | .zero _ | .infinity _ | .notANumber => 0

/-- Half a last place above the greatest double: what is as great is rounded to infinity. -/
def overflow : ℚ :=
  (2 ^ 54 - 1) * 2 ^ (970 : Int)

theorem word_lt_overflow : (2 : ℚ) ^ 64 < overflow := by
  have far : (2 : ℚ) ^ (64 : Int) ≤ 2 ^ (970 : Int) :=
    zpow_le_zpow_right₀ (by norm_num) (by norm_num)
  have unit : (0 : ℚ) < 2 ^ (970 : Int) := by positivity
  have far : (2 : ℚ) ^ 64 ≤ 2 ^ (970 : Int) := far
  rw [overflow]
  generalize (2 : ℚ) ^ (970 : Int) = far at *
  linarith

theorem size_rounded (sign : Sign) (most : n ≤ 2 ^ 53) (exponent : Int) :
    size (rounded sign n exponent) = n * 2 ^ exponent := by
  rw [rounded]
  split
  next zero => simp [size, zero]
  next =>
    split
    next => rfl
    next more =>
      have carried : n = 2 ^ 53 := by omega
      rw [carried, size, zpow_add₀ (by norm_num)]
      norm_num
      ring

theorem Scale.unit_le (scale : Scale q exponent) (above : 0 ≤ q) :
    (2 : ℚ) ^ exponent ≤ q / 2 ^ 52 + 2 ^ (-1074 : Int) := by
  have smallest : (0 : ℚ) < 2 ^ (-1074 : Int) := by positivity
  rcases scale.full with full | rfl
  · have places : (2 : ℚ) ^ (exponent + 52) = 2 ^ exponent * 2 ^ 52 := power_add exponent 52
    rw [places, ← le_div_iff₀ (by positivity)] at full
    linarith
  · have : 0 ≤ q / 2 ^ 52 := by positivity
    linarith

theorem Rounds.size_near (rounds : Rounds sign q value) (above : 0 ≤ q) :
    |size value - q| ≤ q / 2 ^ 53 + 2 ^ (-1075 : Int) := by
  obtain ⟨exponent, n, scale, nearest, rfl⟩ := rounds
  have unit : (0 : ℚ) < 2 ^ exponent := by positivity
  have small := scale.unit_le above
  have halved : (2 : ℚ) ^ (-1074 : Int) = 2 * 2 ^ (-1075 : Int) := by rw [← power_succ]; rfl
  have low := (le_div_iff₀ unit).1 nearest.above
  have high := (div_le_iff₀ unit).1 nearest.below
  rw [size_rounded sign (nearest.le_carried scale), abs_le]
  rw [halved] at small
  constructor <;> linarith

theorem Nearest.full (scale : Scale q exponent) (nearest : Nearest n (q / 2 ^ exponent)) :
    2 ^ 52 ≤ n ∨ exponent = -1074 := by
  have unit : (0 : ℚ) < 2 ^ exponent := by positivity
  refine scale.full.imp_left fun full => ?_
  have places : (2 : ℚ) ^ 52 ≤ q / 2 ^ exponent := by
    rw [le_div_iff₀ unit]
    exact (power_add 52 exponent).symm.trans_le (by rwa [add_comm])
  have whole : (2 : ℚ) ^ 52 < n + 1 := by linarith [nearest.below]
  have whole : 2 ^ 52 < n + 1 := by exact_mod_cast whole
  omega

theorem repack_great (great : 972 ≤ exponent) :
    repack (.finite sign mantissa exponent positive) = .infinity sign := by
  have limit : 2048 ≤ (exponent + 1023 + 52).toNat + 1 := by omega
  simp only [repack, pack]
  split
  next =>
    cases sign <;> rfl
  next small =>
    change ¬ 2048 ≤ (exponent + 1023 + 52).toNat + 1 at small
    exact absurd limit small

-- Only a great exponent leaves the form in which doubles are stored, and it takes a great value.
theorem Rounds.repack_eq (rounds : Rounds sign q value) (below : q < overflow) :
    repack value = value ∧ value.isFinite = true := by
  obtain ⟨exponent, n, scale, nearest, rfl⟩ := rounds
  have unit : (0 : ℚ) < 2 ^ exponent := by positivity
  have most := nearest.le_carried scale
  have greatest : exponent ≤ 971 := by
    by_contra great
    rcases scale.full with full | lowest
    · have power : (2 : ℚ) ^ (1024 : Int) ≤ 2 ^ (exponent + 52) :=
        zpow_le_zpow_right₀ (by norm_num) (by omega)
      have limit : (2 : ℚ) ^ (1024 : Int) = 2 ^ (54 : Int) * 2 ^ (970 : Int) := power_add 54 970
      have smaller : (0 : ℚ) < 2 ^ (970 : Int) := by positivity
      rw [limit] at power
      rw [overflow] at below
      generalize (2 : ℚ) ^ (970 : Int) = unit at power smaller below
      norm_num at power below
      linarith
    · omega
  have full := nearest.full scale
  rw [rounded]
  split
  next zero => cases sign <;> exact ⟨rfl, rfl⟩
  next =>
    split
    next fits => exact ⟨repack_stored ⟨fits, full, scale.least, greatest⟩, rfl⟩
    next more =>
      have carried : n = 2 ^ 53 := by omega
      have smaller : exponent ≠ 971 := by
        rintro rfl
        have above := nearest.above
        have doubled : (2 : ℚ) ^ (971 : Int) = 2 * 2 ^ (970 : Int) := power_succ 970
        rw [carried, le_div_iff₀ unit, doubled] at above
        rw [overflow] at below
        generalize (2 : ℚ) ^ (970 : Int) = unit at above below
        push_cast at above
        linarith
      have least := scale.least
      exact ⟨repack_stored ⟨by norm_num, .inl le_rfl, by omega, by omega⟩, rfl⟩

theorem Rounds.shape (rounds : Rounds sign q value) :
    value = .zero sign ∨ ∃ mantissa exponent positive,
      value = .finite sign mantissa exponent positive ∧
        (exponent ≤ 971 → Stored mantissa exponent) ∧ (972 ≤ exponent → 2 ^ 52 ≤ mantissa) := by
  obtain ⟨exponent, n, scale, nearest, rfl⟩ := rounds
  have full := nearest.full scale
  have least := scale.least
  rw [rounded]
  split
  next => exact .inl rfl
  next some =>
    split
    next fits =>
      exact .inr ⟨n, exponent, Nat.pos_of_ne_zero some, rfl,
        fun small => ⟨fits, full, least, small⟩,
        fun great => full.resolve_right (by omega)⟩
    next =>
      exact .inr ⟨2 ^ 52, exponent + 1, by decide, rfl,
        fun small => ⟨by norm_num, .inl le_rfl, by omega, small⟩, fun _ => le_rfl⟩

-- A value that is still finite after it has been stored has not been changed by it.
theorem Rounds.repack_of_finite (rounds : Rounds sign q value)
    (finite : (repack value).isFinite = true) : repack value = value := by
  rcases rounds.shape with rfl | ⟨mantissa, exponent, positive, rfl, stored, -⟩
  · cases sign <;> rfl
  · by_cases great : 972 ≤ exponent
    · rw [repack_great great] at finite
      cases finite
    · exact repack_stored (stored (by omega))

def Within (mantissa : Nat) (exponent : Int) (q : ℚ) : Prop :=
  Nearest mantissa (q / 2 ^ exponent) ∧ (mantissa = 2 ^ 52 → exponent ≠ -1074 →
    2 ^ 52 - 1 / 4 ≤ q / 2 ^ exponent)

theorem Within.rounds (within : Within mantissa exponent q) (stored : Stored mantissa exponent)
    (positive : 0 < mantissa) (sign : Sign) :
    Rounds sign q (.finite sign mantissa exponent positive) := by
  obtain ⟨nearest, close⟩ := within
  have unit : (0 : ℚ) < 2 ^ exponent := by positivity
  have most : (mantissa : ℚ) + 1 ≤ 2 ^ 53 := by exact_mod_cast stored.fits
  have fits : q < 2 ^ (exponent + 53) := by
    rw [add_comm, power_add, ← div_lt_iff₀ unit]
    have near : q / 2 ^ exponent < mantissa + 1 := by linarith [nearest.below]
    exact near.trans_le most
  by_cases full : 2 ^ (exponent + 52) ≤ q ∨ exponent = -1074
  · refine ⟨exponent, mantissa, ⟨stored.least, fits, full⟩, nearest, ?_⟩
    rw [rounded, dif_neg positive.ne', if_pos stored.fits]
  · -- The double is the least with its last place, and the value lies among those below it.
    obtain ⟨short, higher⟩ := not_or.1 full
    have short : q / 2 ^ exponent < 2 ^ 52 := by
      rw [div_lt_iff₀ unit]
      calc q < 2 ^ (exponent + 52) := not_le.1 short
        _ = 2 ^ (52 : Int) * 2 ^ exponent := by rw [add_comm, power_add]
    have many : 2 ^ 52 ≤ mantissa := stored.full.resolve_right higher
    have few : (mantissa : ℚ) < 2 ^ 52 + 1 := by linarith [nearest.above]
    have few : mantissa < 2 ^ 52 + 1 := by exact_mod_cast few
    obtain rfl : mantissa = 2 ^ 52 := by omega
    have near := close rfl higher
    have halved : (2 : ℚ) ^ exponent = 2 * 2 ^ (exponent - 1) := by
      rw [← power_succ, Int.sub_add_cancel]
    have unit' : (0 : ℚ) < 2 ^ (exponent - 1) := by positivity
    have finer : q / 2 ^ (exponent - 1) = 2 * (q / 2 ^ exponent) := by
      rw [halved]
      field_simp
    have least := stored.least
    refine ⟨exponent - 1, 2 ^ 53, ⟨by omega, ?_, .inl ?_⟩, ⟨?_, ?_, ?_⟩, ?_⟩
    · rw [add_comm, power_add, ← div_lt_iff₀ unit', finer]
      change _ < (2 : ℚ) ^ 53
      linarith
    · rw [add_comm, power_add, ← le_div_iff₀ unit', finer]
      change (2 : ℚ) ^ 52 ≤ _
      linarith
    · rw [finer]
      push_cast
      linarith
    · rw [finer]
      push_cast
      linarith
    · intro _
      norm_num
    · rw [rounded, dif_neg (by norm_num), if_neg (by norm_num)]
      exact finite_congr rfl (Int.sub_add_cancel exponent 1).symm

end Storing

def IsStored : UnpackedFloat → Prop
  | .finite _ mantissa exponent _ => Stored mantissa exponent
  | .zero _ | .infinity _ | .notANumber => True

theorem unpack_stored (bits : BitVec 64) : IsStored (unpack .binary64 bits) := by
  let stored : BitVec 11 := @unpackExponent .binary64 bits
  let fraction : BitVec 52 := @unpackMantissa .binary64 bits
  have below : stored.toNat < 2048 := stored.isLt
  have small : fraction.toNat < 2 ^ 52 := fraction.isLt
  simp only [unpack]
  split
  next => split <;> trivial
  next ordinary =>
    have not_last : stored.toNat ≠ 2047 := fun same => ordinary (BitVec.eq_of_toNat_eq same)
    split
    next zero =>
      have none_stored : stored.toNat = 0 := congrArg BitVec.toNat zero
      split
      next => trivial
      next =>
        refine ⟨?_, .inr ?_, ?_, ?_⟩
        · change fraction.toNat < 2 ^ 53
          omega
        · change (stored.toNat : Int) - (1023 + 52) + 1 = -1074
          omega
        · change -1074 ≤ (stored.toNat : Int) - (1023 + 52) + 1
          omega
        · change (stored.toNat : Int) - (1023 + 52) + 1 ≤ 971
          omega
    next normal =>
      have not_zero : stored.toNat ≠ 0 := fun same => normal (BitVec.eq_of_toNat_eq same)
      have hidden : (1#1 ++ fraction).toNat = 2 ^ 52 + fraction.toNat := toNat_hidden fraction
      refine ⟨?_, .inl ?_, ?_, ?_⟩
      · change (1#1 ++ fraction).toNat < 2 ^ 53
        omega
      · change 2 ^ 52 ≤ (1#1 ++ fraction).toNat
        omega
      · change -1074 ≤ (stored.toNat : Int) - (1023 + 52)
        omega
      · change (stored.toNat : Int) - (1023 + 52) ≤ 971
        omega

theorem parts_stored (x : Float) : IsStored (parts x) :=
  unpack_stored _

theorem finite_cases {value : UnpackedFloat} (finite : value.isFinite = true) :
    (∃ sign, value = .zero sign) ∨
      ∃ sign mantissa exponent positive, value = .finite sign mantissa exponent positive := by
  cases value with
  | notANumber | infinity => cases finite
  | zero sign => exact .inl ⟨sign, rfl⟩
  | finite sign mantissa exponent positive => exact .inr ⟨_, _, _, positive, rfl⟩

theorem repack_eq {value : UnpackedFloat} (stored : IsStored value) : repack value = value := by
  cases value with
  | notANumber => rfl
  | infinity sign | zero sign => cases sign <;> rfl
  | finite sign mantissa exponent positive => exact repack_stored stored

theorem parts_neg (x : Float) : parts (-x) = (parts x).neg := by
  change repack (parts x).neg = (parts x).neg
  have stored := parts_stored x
  cases shape : parts x with
  | notANumber | infinity sign | zero sign => exact repack_eq trivial
  | finite sign mantissa exponent positive =>
    rw [shape] at stored
    exact repack_stored stored

section Operations

variable {sign : Sign} {mantissa : Nat} {exponent : Int} {left right : UnpackedFloat}

theorem round_rounds (positive : 0 < mantissa) (sign : Sign) (exponent : Int) :
    Rounds sign (mantissa * 2 ^ exponent) (round .binary64 sign mantissa exponent) := by
  let target := max ((mantissa.log2 : Int) + exponent - 52) (-1074)
  let count := (exponent - target).toNat
  have widened : round .binary64 sign mantissa exponent =
      roundWithAccuracy .binary64 sign (mantissa <<< count) (exponent - count) .exact := by
    rw [UnpackedFloat.round, targetExponent_eq]
    rfl
  rw [widened]
  have places := Nat.log2_self_le positive.ne'
  apply roundWithAccuracy_rounds
  · by_cases low : exponent - count ≤ -1074
    · exact .inr low
    · left
      calc 2 ^ 52 ≤ 2 ^ (mantissa.log2 + count) := Nat.pow_le_pow_right (by decide) (by omega)
        _ = 2 ^ mantissa.log2 * 2 ^ count := Nat.pow_add ..
        _ ≤ mantissa * 2 ^ count := Nat.mul_le_mul_right _ places
        _ = mantissa <<< count := (Nat.shiftLeft_eq ..).symm
  · change _ = ((mantissa <<< count : Nat) : ℚ)
    rw [Nat.shiftLeft_eq, div_eq_iff (by positivity), sub_eq_neg_add, power_add]
    push_cast
    rw [zpow_neg, zpow_natCast]
    field_simp

theorem rounds_zero (sign : Sign) : Rounds sign 0 (.zero sign) := by
  refine ⟨-1074, 0, ⟨le_rfl, by positivity, .inr rfl⟩, ?_, rfl⟩
  simpa using Nearest.self 0

def signed : Sign → ℚ → ℚ
  | .negative, q => -q
  | .positive, q => q

theorem abs_signed (sign : Sign) (q : ℚ) : |signed sign q| = |q| := by
  cases sign
  · exact abs_neg q
  · rfl

theorem le_add_of_signed {first second result : Sign} {q p r : ℚ} (above : 0 ≤ q) (above' : 0 ≤ p)
    (sum : signed result r = signed first q + signed second p) : r ≤ q + p := by
  cases first <;> cases second <;> cases result <;> simp only [signed] at sum <;> linarith

theorem signed_apply (sign : Sign) (n : Int) : ((sign.apply n : Int) : ℚ) = signed sign n := by
  cases sign
  · exact Int.cast_neg n
  · rfl

theorem signed_mul (sign : Sign) (q p : ℚ) : signed sign q * p = signed sign (q * p) := by
  cases sign
  · exact neg_mul q p
  · rfl

theorem normalize_rounds (mantissa exponent : Int) :
    ∃ sign, signed sign (mantissa.natAbs * 2 ^ exponent) = mantissa * 2 ^ exponent ∧
      Rounds sign (mantissa.natAbs * 2 ^ exponent)
        (UnpackedFloat.normalize .binary64 mantissa exponent .positive) := by
  rw [UnpackedFloat.normalize]
  split
  next below =>
    have below := compare_lt_iff_lt.1 below
    have same : (-mantissa).toNat = mantissa.natAbs := by omega
    have value : ((mantissa.natAbs : Nat) : ℚ) = -mantissa := by
      rw [Nat.cast_natAbs, abs_of_neg below, Int.cast_neg]
    rw [same]
    refine ⟨.negative, ?_, round_rounds (by omega) .negative exponent⟩
    rw [signed, value]
    ring
  next same =>
    obtain rfl := compare_eq_iff_eq.1 same
    refine ⟨.positive, by simp [signed], ?_⟩
    simpa using rounds_zero .positive
  next above =>
    have above := compare_gt_iff_gt.1 above
    have same : mantissa.toNat = mantissa.natAbs := by omega
    have value : ((mantissa.natAbs : Nat) : ℚ) = mantissa := by
      rw [Nat.cast_natAbs, abs_of_pos above]
    rw [same]
    refine ⟨.positive, ?_, round_rounds (by omega) .positive exponent⟩
    rw [signed, value]

-- A whole number below the greatest word is far from the overflow.
theorem ofNatural_rounds (n : Nat) :
    Rounds .positive n.toUInt64.toNat (parts (ofNatural n)) ∧ (ofNatural n).isFinite = true := by
  have fits : (n.toUInt64.toNat : ℚ) < 2 ^ 64 := by exact_mod_cast n.toUInt64.toNat_lt
  have rounds : Rounds .positive n.toUInt64.toNat
      (UnpackedFloat.normalize .binary64 n.toUInt64.toNat 0 .positive) := by
    generalize n.toUInt64.toNat = whole
    rw [UnpackedFloat.normalize]
    split
    next below => exact absurd (compare_lt_iff_lt.1 below) (by omega)
    next same =>
      obtain rfl : whole = 0 := by simpa using same
      simpa using rounds_zero .positive
    next above =>
      have some : 0 < whole := by simpa using compare_gt_iff_gt.1 above
      simpa using round_rounds some .positive 0
  obtain ⟨same, finite⟩ := rounds.repack_eq (fits.trans word_lt_overflow)
  have stored : parts (ofNatural n) =
      repack (UnpackedFloat.normalize .binary64 n.toUInt64.toNat 0 .positive) := rfl
  rw [stored, same]
  refine ⟨rounds, ?_⟩
  change (parts (ofNatural n)).isFinite = true
  rwa [stored, same]

theorem accuracyOfFraction_stands (top : Nat) {bottom : Nat} (positive : 0 < bottom) :
    Stands (accuracyOfFraction (top % bottom) bottom) (top / bottom : Nat)
      ((top : ℚ) / bottom) := by
  have parts : (top : ℚ) / bottom = (top / bottom : Nat) + ((top % bottom : Nat) : ℚ) / bottom := by
    have whole : (top : ℚ) = bottom * (top / bottom : Nat) + (top % bottom : Nat) := by
      exact_mod_cast (Nat.div_add_mod top bottom).symm
    have : (bottom : ℚ) ≠ 0 := by positivity
    field_simp
    linarith
  have unit : (0 : ℚ) < bottom := by exact_mod_cast positive
  have less : ((top % bottom : Nat) : ℚ) / bottom < 1 := by
    rw [div_lt_one unit]
    exact_mod_cast Nat.mod_lt top positive
  rw [parts, accuracyOfFraction]
  generalize top % bottom = rest at less
  generalize top / bottom = whole
  split
  next zero =>
    rw [zero]
    change (whole : ℚ) + ((0 : Nat) : ℚ) / bottom = whole
    simp
  next some =>
    have some : (0 : ℚ) < rest := by exact_mod_cast Nat.pos_of_ne_zero some
    have above : (0 : ℚ) < rest / bottom := by positivity
    rcases Nat.lt_trichotomy (2 * rest) bottom with fewer | half | more
    · rw [compare_lt_iff_lt.2 fewer]
      have fewer : (2 : ℚ) * rest < bottom := by exact_mod_cast fewer
      have below : (rest : ℚ) / bottom < 1 / 2 := by
        rw [div_lt_iff₀ unit]
        linarith
      exact ⟨by linarith, by linarith⟩
    · rw [compare_eq_iff_eq.2 half]
      have half : (2 : ℚ) * rest = bottom := by exact_mod_cast half
      have same : (rest : ℚ) / bottom = 1 / 2 := by
        rw [div_eq_iff unit.ne']
        linarith
      change (whole : ℚ) + rest / bottom = whole + 1 / 2
      rw [same]
    · rw [compare_gt_iff_gt.2 more]
      have more : (bottom : ℚ) < 2 * rest := by exact_mod_cast more
      have beyond : (1 / 2 : ℚ) < rest / bottom := by
        rw [lt_div_iff₀ unit]
        linarith
      exact ⟨by linarith, by linarith⟩

theorem add_rounds {sign' : Sign} {mantissa' : Nat} {exponent' : Int} {positive : 0 < mantissa}
    {positive' : 0 < mantissa'} :
    ∃ (result : Sign) (q : ℚ), 0 ≤ q ∧
      signed result q = signed sign (mantissa * 2 ^ exponent) +
        signed sign' (mantissa' * 2 ^ exponent') ∧
      Rounds result q (UnpackedFloat.add .binary64 (.finite sign mantissa exponent positive)
        (.finite sign' mantissa' exponent' positive')) := by
  let low := min exponent exponent'
  let widened := mantissa <<< (exponent - low).toNat
  let widened' := mantissa' <<< (exponent' - low).toNat
  let total := sign.apply widened + sign'.apply widened'
  obtain ⟨result, value, rounds⟩ := normalize_rounds total low
  refine ⟨result, _, by positivity, ?_, rounds⟩
  have moved (n : Nat) {exponent : Int} (above : low ≤ exponent) :
      ((n <<< (exponent - low).toNat : Nat) : ℚ) * 2 ^ low = n * 2 ^ exponent := by
    have arrives : ((exponent - low).toNat : Int) + low = exponent := by omega
    rw [Nat.shiftLeft_eq]
    push_cast
    rw [mul_assoc, ← zpow_natCast, ← power_add, arrives]
  calc signed result (total.natAbs * 2 ^ low) = total * 2 ^ low := value
    _ = signed sign (widened * 2 ^ low) + signed sign' (widened' * 2 ^ low) := by
      rw [← signed_mul, ← signed_mul, ← add_mul, Int.cast_add, signed_apply, signed_apply,
        Int.cast_natCast, Int.cast_natCast]
    _ = _ := by rw [moved mantissa (min_le_left ..), moved mantissa' (min_le_right ..)]

theorem div_rounds {sign' : Sign} {mantissa' : Nat} {exponent' : Int} {positive : 0 < mantissa}
    {positive' : 0 < mantissa'} :
    Rounds (sign / sign') (mantissa * 2 ^ exponent / (mantissa' * 2 ^ exponent'))
      (UnpackedFloat.div .binary64 (.finite sign mantissa exponent positive)
        (.finite sign' mantissa' exponent' positive')) := by
  let target := min (exponent - exponent')
    (Format.binary64.targetExponent (totalExponent mantissa exponent -
      totalExponent mantissa' exponent'))
  have limit : target ≤ exponent - exponent' ∧ target ≤
      max ((mantissa.log2 : Int) + exponent - (mantissa'.log2 + exponent') - 53) (-1074) := by
    refine ⟨min_le_left .., (min_le_right ..).trans (le_of_eq ?_)⟩
    change max
      ((mantissa.log2 : Int) + 1 + exponent - (mantissa'.log2 + 1 + exponent') - (53 : Nat))
      (3 - 2 ^ 10 - (53 : Nat)) = _
    omega
  let count := (exponent - exponent' - target).toNat
  let top := mantissa <<< count
  change Rounds _ _ (roundWithAccuracy .binary64 _ (top / mantissa') target
    (accuracyOfFraction (top % mantissa') mantissa'))
  have widened : top = mantissa * 2 ^ count := Nat.shiftLeft_eq ..
  apply roundWithAccuracy_rounds
  · by_cases low : target ≤ -1074
    · exact .inr low
    · left
      rw [Nat.le_div_iff_mul_le positive', widened]
      calc 2 ^ 52 * mantissa' ≤ 2 ^ 52 * 2 ^ (mantissa'.log2 + 1) :=
            Nat.mul_le_mul_left _ Nat.lt_log2_self.le
        _ = 2 ^ (52 + (mantissa'.log2 + 1)) := (Nat.pow_add ..).symm
        _ ≤ 2 ^ (mantissa.log2 + count) := Nat.pow_le_pow_right (by decide) (by omega)
        _ = 2 ^ mantissa.log2 * 2 ^ count := Nat.pow_add ..
        _ ≤ mantissa * 2 ^ count := Nat.mul_le_mul_right _ (Nat.log2_self_le positive.ne')
  · have quotient : (mantissa : ℚ) * 2 ^ exponent / (mantissa' * 2 ^ exponent') / 2 ^ target =
        (top : ℚ) / mantissa' := by
      have arrives : exponent = count + (exponent' + target) := by omega
      have nonzero : (mantissa' : ℚ) ≠ 0 := by positivity
      rw [widened, arrives, power_add, power_add, zpow_natCast]
      push_cast
      field_simp
    rw [quotient]
    exact accuracyOfFraction_stands top positive'

theorem mul_rounds {sign' : Sign} {mantissa' : Nat} {exponent' : Int} {positive : 0 < mantissa}
    {positive' : 0 < mantissa'}
    (fine : 2 ^ 52 ≤ mantissa * mantissa' ∨ exponent + exponent' ≤ -1074) :
    Rounds (sign * sign') (mantissa * 2 ^ exponent * (mantissa' * 2 ^ exponent'))
      (UnpackedFloat.mul .binary64 (.finite sign mantissa exponent positive)
        (.finite sign' mantissa' exponent' positive')) := by
  refine roundWithAccuracy_rounds _ fine ?_
  change _ = ((mantissa * mantissa' : Nat) : ℚ)
  rw [div_eq_iff (by positivity), power_add]
  push_cast
  ring

end Operations

end Spellcraft.Number
