import Spellcraft.Json.Value
import Spellcraft.Number.Literal

set_option autoImplicit false

namespace Spellcraft.Json

structure NumberText where
  isNegative : Bool
  whole : List Char
  fraction : List Char
  exponent : Option Int

/-- Takes digits into a significand while it fits, and answers those left over. -/
def takeDigits : Nat → List Char → Nat × List Char
  | significand, [] => (significand, [])
  | significand, digit :: rest =>
    let grown := 10 * significand + (digit.toNat - '0'.toNat)
    if grown < UInt64.size then takeDigits grown rest else (significand, digit :: rest)

def powerOfTen (exponent : Nat) : Float :=
  Float.ofScientific 1 false exponent

/-- The significand times a power of ten; too large is none. A step down by `1e308` is taken at most
twice before nothing is left. -/
def scale? : Nat → Float → Int → Option Float
  | 0, x, _ => some x
  | steps + 1, x, exponent =>
    if exponent.natAbs ≤ 308 then
      if exponent < 0 then some (x / powerOfTen exponent.natAbs)
      else
        let product := x * powerOfTen exponent.natAbs
        if product.isInf then none else some product
    else if x == 0.0 then some x
    else if 0 ≤ exponent then none
    else scale? steps (x / powerOfTen 308) (exponent + 308)

def NumberText.real? (text : NumberText) : Option Numeral :=
  let (start, dropped) := takeDigits 0 text.whole
  let (significand, ignored) := takeDigits start text.fraction
  let used := text.fraction.length - ignored.length
  let exponent : Int := dropped.length - used + text.exponent.getD 0
  (scale? 4 (Number.ofNatural significand) exponent).map fun size =>
    .real (if text.isNegative then -size else size)

/-- Zero with a minus sign is a double, and so is a whole number too large for its form. -/
def NumberText.value? (text : NumberText) : Option Numeral :=
  let (whole, dropped) := takeDigits 0 text.whole
  if text.fraction.isEmpty && text.exponent.isNone && dropped.isEmpty then
    if !text.isNegative then some (.natural whole.toUInt64)
    else if whole = 0 ∨ 0x8000000000000000 < whole then some (.real (-Number.ofNatural whole))
    else some (.negative (Int64.ofInt (-whole)))
  else text.real?

end Spellcraft.Json
