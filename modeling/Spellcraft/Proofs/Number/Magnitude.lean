import Spellcraft.Number.Binary
import Spellcraft.Proofs.Number.Finite

set_option autoImplicit false

namespace Spellcraft.Number

open Float.Model (UnpackedFloat Format)
open Float.Model.UnpackedFloat

def partsMagnitude : UnpackedFloat → Magnitude
  | .zero _ => .zero
  | .infinity _ => .infinite
  | .notANumber => .notNumber
  | .finite _ mantissa exponent _ =>
    .finite ⟨mantissa, exponent, mantissa == hiddenBit && exponent != -1074⟩

theorem toNat_exponent (bits : BitVec 64) :
    (@unpackExponent .binary64 bits : BitVec 11).toNat = bits.toNat / hiddenBit % 2048 := by
  rw [unpackExponent_def, BitVec.extractLsb'_toNat, Nat.shiftRight_eq_div_pow]
  rfl

theorem toNat_fraction (bits : BitVec 64) :
    (@unpackMantissa .binary64 bits : BitVec 52).toNat = bits.toNat % hiddenBit := by
  rw [unpackMantissa_def, BitVec.extractLsb'_toNat, Nat.shiftRight_zero]
  rfl

theorem partsMagnitude_finite {sign : Sign} {mantissa mantissa' : Nat} {exponent exponent' : Int}
    {positive : 0 < mantissa} {closeBelow : Bool} (same : mantissa = mantissa')
    (same' : exponent = exponent')
    (close : closeBelow = (mantissa' == hiddenBit && exponent' != -1074)) :
    partsMagnitude (.finite sign mantissa exponent positive) =
      .finite ⟨mantissa', exponent', closeBelow⟩ := by
  subst same same' close
  rfl

theorem magnitude_eq (x : Float) : magnitude x = partsMagnitude (parts x) := by
  let bits : BitVec 64 := x.toModel.toBits.toBitVec
  let stored : BitVec 11 := @unpackExponent .binary64 bits
  let fraction : BitVec 52 := @unpackMantissa .binary64 bits
  have biased : x.toBits.toNat / hiddenBit % 2048 = stored.toNat := (toNat_exponent bits).symm
  have rest : x.toBits.toNat % hiddenBit = fraction.toNat := (toNat_fraction bits).symm
  have short : fraction.toNat < hiddenBit := fraction.isLt
  have hidden : (1#1 ++ fraction).toNat = hiddenBit + fraction.toNat := toNat_hidden fraction
  have infinite : stored = -1#11 ↔ stored.toNat = 2047 := BitVec.toNat_inj.symm
  have low : stored = 0#11 ↔ stored.toNat = 0 := BitVec.toNat_inj.symm
  have whole : fraction = 0#52 ↔ fraction.toNat = 0 := BitVec.toNat_inj.symm
  change magnitude x = partsMagnitude (unpack .binary64 bits)
  simp only [magnitude, biased, rest, unpack]
  by_cases last : stored.toNat = 2047
  · rw [if_pos last, if_pos (infinite.2 last)]
    by_cases zero : fraction.toNat = 0
    · rw [if_pos zero, if_pos (whole.2 zero)]
      rfl
    · rw [if_neg zero, if_neg (mt whole.1 zero)]
      rfl
  · rw [if_neg last, if_neg (mt infinite.1 last)]
    by_cases first : stored.toNat = 0
    · rw [if_pos first, if_pos (low.2 first)]
      by_cases zero : fraction.toNat = 0
      · rw [if_pos zero, dif_pos (whole.2 zero)]
        rfl
      · rw [if_neg zero, dif_neg (mt whole.1 zero)]
        refine (partsMagnitude_finite rfl ?_ ?_).symm
        · change (stored.toNat : Int) - (1023 + 52) + 1 = -1074
          omega
        · simp
    · rw [if_neg first, if_neg (mt low.1 first)]
      have exponent : (stored.toNat : Int) - (1023 + 52) = stored.toNat - 1075 := by omega
      refine (partsMagnitude_finite hidden exponent ?_).symm
      have same' : (stored.toNat : Int) - 1075 = -1074 ↔ stored.toNat = 1 := by omega
      rw [Bool.eq_iff_iff]
      simp [same']

theorem isFinite_eq (x : Float) : isFinite x = x.isFinite := by
  change isFinite x = (parts x).isFinite
  rw [isFinite, magnitude_eq]
  cases parts x <;> rfl

theorem parts_injective {x y : Float} (same : parts x = parts y) : x = y := by
  obtain ⟨⟨bits, valid⟩⟩ := x
  obtain ⟨⟨bits', valid'⟩⟩ := y
  obtain rfl : bits = bits' := UInt64.toBitVec_inj.1 ((unpack_inj_of_valid valid valid').1 same)
  rfl

theorem zero_cases {x : Float} (zero : magnitude x = .zero) : x = 0.0 ∨ x = -0.0 := by
  rw [magnitude_eq] at zero
  cases shape : parts x with
  | notANumber | infinity | finite =>
    rw [shape] at zero
    cases zero
  | zero sign =>
    cases sign with
    | positive => exact .inl (parts_injective shape)
    | negative => exact .inr (parts_injective shape)

theorem isNegative_eq (x : Float) :
    isNegative x =
      (Sign.ofBitVec (@unpackSign .binary64 x.toModel.toBits.toBitVec) == .negative) := by
  let bits : BitVec 64 := x.toModel.toBits.toBitVec
  have top : x.toBits >>> 63 = 1 ↔ bits.toNat / 2 ^ 63 = 1 := by
    rw [← UInt64.toNat_inj, UInt64.toNat_shiftRight, Nat.shiftRight_eq_div_pow]
    rfl
  have sign : (@unpackSign .binary64 bits : BitVec 1).toNat = bits.toNat / 2 ^ 63 := by
    have short : bits.toNat < 2 ^ 64 := bits.isLt
    rw [unpackSign_def, BitVec.extractLsb'_toNat, Nat.shiftRight_eq_div_pow]
    refine Nat.mod_eq_of_lt ?_
    change bits.toNat / 2 ^ 63 < 2 ^ 1
    omega
  have bit : ∀ bit : BitVec 1, (Sign.ofBitVec bit == .negative) = (bit.toNat == 1) := by decide
  rw [bit]
  change (x.toBits >>> 63 == 1) = ((@unpackSign .binary64 bits : BitVec 1).toNat == 1)
  rw [Bool.eq_iff_iff, beq_iff_eq, beq_iff_eq, top, sign]

theorem isNegative_finite {x : Float} {sign : Sign} {mantissa : Nat} {exponent : Int}
    {positive : 0 < mantissa} (shape : parts x = .finite sign mantissa exponent positive) :
    isNegative x = (sign == .negative) := by
  rw [isNegative_eq]
  change unpack .binary64 x.toModel.toBits.toBitVec = _ at shape
  simp only [unpack] at shape
  split at shape
  · split at shape <;> cases shape
  · split at shape
    · split at shape <;> cases shape
      rfl
    · cases shape
      rfl

end Spellcraft.Number
