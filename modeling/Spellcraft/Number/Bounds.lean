set_option autoImplicit false

namespace Spellcraft.Number

-- Exact below `2 ^ 53` in size.
def ofNatural (n : Nat) : Float :=
  n.toUInt64.toFloat

def ofInteger (n : Int) : Float :=
  if n < 0 then -ofNatural n.natAbs else ofNatural n.natAbs

/-- The smaller of two doubles, the second of two equal ones, and the other one when one is not a
number. -/
def least (x y : Float) : Float :=
  if x.isNaN || y ≤ x then y else x

def confine (low high x : Float) : Float :=
  let raised := if x < low then low else x
  if high < raised then high else raised

def wholeAbove (x : Float) : UInt64 :=
  let whole := x.toUInt64
  if whole.toFloat < x ∧ whole < 0xFFFFFFFFFFFFFFFF then whole + 1 else whole

end Spellcraft.Number
