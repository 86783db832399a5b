set_option autoImplicit false

namespace Spellcraft.Number

structure Binary where
  mantissa : Nat
  exponent : Int
  -- The double below is half as far away as the one above.
  closeBelow : Bool
deriving Repr, DecidableEq

inductive Magnitude where
  | zero
  | finite (value : Binary)
  | infinite
  | notNumber
deriving Repr, DecidableEq

def hiddenBit : Nat := 0x10000000000000

def isNegative (x : Float) : Bool :=
  x.toBits >>> 63 == 1

def magnitude (x : Float) : Magnitude :=
  let bits := x.toBits.toNat
  let biased := bits / hiddenBit % 2048
  let fraction := bits % hiddenBit
  if biased = 2047 then
    if fraction = 0 then .infinite else .notNumber
  else if biased = 0 then
    if fraction = 0 then .zero else .finite ⟨fraction, -1074, false⟩
  else
    .finite ⟨hiddenBit + fraction, biased - 1075, fraction == 0 && biased != 1⟩

def isFinite (x : Float) : Bool :=
  match magnitude x with
  | .zero | .finite _ => true
  | .infinite | .notNumber => false

/-- The value times `2 ^ k`, for a `k` that makes it whole, and that power. -/
def Binary.ratio (b : Binary) : Nat × Nat :=
  (b.mantissa * Nat.pow 2 b.exponent.toNat, Nat.pow 2 (-b.exponent).toNat)

def Binary.quarters (b : Binary) : Nat × Nat :=
  (4 * b.mantissa - (if b.closeBelow then 1 else 2), 4 * b.mantissa + 2)

end Spellcraft.Number
