import Spellcraft.Proofs.Number.Magnitude

set_option autoImplicit false

namespace Spellcraft.Number

open Float.Model (UnpackedFloat Format)
open Float.Model.UnpackedFloat

theorem unpack_neg (sign : Sign) (exponent : BitVec 11) (mantissa : BitVec 52) :
    unpack .binary64 (packComponents .binary64 (-sign) exponent mantissa) =
      (unpack .binary64 (packComponents .binary64 sign exponent mantissa)).neg := by
  simp only [unpack, unpackExponent_packComponents, unpackMantissa_packComponents,
    unpackSign_packComponents, Sign.ofBitVec_toBitVec]
  split_ifs <;> rfl

theorem repack_neg (value : UnpackedFloat) : repack value.neg = (repack value).neg := by
  rcases value with sign | _ | sign | ⟨sign, mantissa, exponent, positive⟩
  case infinity => cases sign <;> rfl
  case notANumber => rfl
  case zero => cases sign <;> rfl
  case finite =>
    simp only [repack, pack, UnpackedFloat.neg]
    split
    · cases sign <;> rfl
    · split <;> exact unpack_neg ..

theorem roundWithAccuracy_neg (sign : Sign) (mantissa : Nat) (exponent : Int)
    (accuracy : Accuracy) :
    roundWithAccuracy .binary64 (-sign) mantissa exponent accuracy =
      (roundWithAccuracy .binary64 sign mantissa exponent accuracy).neg := by
  simp only [roundWithAccuracy]
  split <;> rfl

theorem parts_mul_neg (left right : UnpackedFloat) :
    UnpackedFloat.mul .binary64 left right.neg = (UnpackedFloat.mul .binary64 left right).neg := by
  rcases left with sign | _ | sign | ⟨sign, mantissa, exponent, positive⟩ <;>
    rcases right with sign' | _ | sign' | ⟨sign', mantissa', exponent', positive'⟩
  case finite.finite =>
    have turned : sign * -sign' = -(sign * sign') := by cases sign <;> cases sign' <;> rfl
    simp only [UnpackedFloat.mul, UnpackedFloat.neg, turned]
    exact roundWithAccuracy_neg ..
  all_goals first | rfl | (cases sign <;> cases sign' <;> rfl)

theorem parts_mul_comm (left right : UnpackedFloat) :
    UnpackedFloat.mul .binary64 left right = UnpackedFloat.mul .binary64 right left := by
  rcases left with sign | _ | sign | ⟨sign, mantissa, exponent, positive⟩ <;>
    rcases right with sign' | _ | sign' | ⟨sign', mantissa', exponent', positive'⟩
  case finite.finite =>
    have turned : sign * sign' = sign' * sign := by cases sign <;> cases sign' <;> rfl
    simp only [UnpackedFloat.mul, turned, Nat.mul_comm mantissa, Int.add_comm exponent]
  all_goals first | rfl | (cases sign <;> cases sign' <;> rfl)

theorem parts_sub (left right : UnpackedFloat) :
    UnpackedFloat.sub .binary64 left right = UnpackedFloat.add .binary64 left right.neg := by
  rcases left with sign | _ | sign | ⟨sign, mantissa, exponent, positive⟩ <;>
    rcases right with sign' | _ | sign' | ⟨sign', mantissa', exponent', positive'⟩
  case finite.finite =>
    cases sign'
    · simp only [UnpackedFloat.sub, UnpackedFloat.add, UnpackedFloat.neg, Sign.apply,
        sub_neg_eq_add]
    · rfl
  all_goals rfl

protected theorem neg_neg (x : Float) : - -x = x := by
  apply parts_injective
  rw [parts_neg, parts_neg]
  rcases parts x with sign | _ | sign | ⟨sign, mantissa, exponent, positive⟩
  case notANumber => rfl
  all_goals cases sign <;> rfl

protected theorem mul_comm (x y : Float) : x * y = y * x :=
  congrArg (fun value => Float.ofModel (.pack value)) (parts_mul_comm (parts x) (parts y))

protected theorem mul_neg (x y : Float) : x * -y = -(x * y) := by
  apply parts_injective
  change repack (UnpackedFloat.mul .binary64 (parts x) (parts (-y))) = _
  rw [parts_neg, parts_neg, parts_mul_neg, repack_neg]
  rfl

protected theorem neg_mul (x y : Float) : -x * y = -(x * y) := by
  rw [Number.mul_comm, Number.mul_neg, Number.mul_comm]

protected theorem sub_eq_add_neg (x y : Float) : x - y = x + -y := by
  apply parts_injective
  change repack (UnpackedFloat.sub .binary64 (parts x) (parts y)) =
    repack (UnpackedFloat.add .binary64 (parts x) (parts (-y)))
  rw [parts_neg, parts_sub]

end Spellcraft.Number
