import Spellcraft.Number.Binary

set_option autoImplicit false

namespace Spellcraft.Number

inductive Tie where
  | up
  | even
deriving Repr, DecidableEq

structure Decimal where
  digits : Nat
  exponent : Int
deriving Repr, DecidableEq

def digitCount (n : Nat) : Nat :=
  (Nat.toDigits 10 n).length

def leadingExponent (top bottom : Nat) : Int :=
  (digitCount (top * Nat.pow 10 400 / bottom) : Int) - 401

def Binary.holds (b : Binary) (d : Decimal) : Bool :=
  let scaled := 4 * d.digits * Nat.pow 10 d.exponent.toNat * Nat.pow 2 (-b.exponent).toNat
  let unit := Nat.pow 2 b.exponent.toNat * Nat.pow 10 (-d.exponent).toNat
  let (low, high) := b.quarters
  if b.mantissa % 2 = 0 then low * unit ≤ scaled && scaled ≤ high * unit
  else low * unit < scaled && scaled < high * unit

/-- The decimal with the given exponent that reads back as `b` and is nearest to it, if any does. -/
def Binary.nearest? (b : Binary) (tie : Tie) (exponent : Int) : Option Decimal :=
  let (top, bottom) := b.ratio
  let scaledTop := top * Nat.pow 10 (-exponent).toNat
  let scaledBottom := bottom * Nat.pow 10 exponent.toNat
  let below := scaledTop / scaledBottom
  let left := 2 * (scaledTop % scaledBottom)
  let low : Decimal := ⟨below, exponent⟩
  let high : Decimal := ⟨below + 1, exponent⟩
  match b.holds low, b.holds high with
  | false, false => none
  | true, false => some low
  | false, true => some high
  | true, true =>
    if left < scaledBottom then some low
    else if scaledBottom < left then some high
    else match tie with
      | .up => some high
      | .even => some (if below % 2 = 0 then low else high)

def Decimal.withoutTrailingZeros (d : Decimal) : Decimal :=
  let zeros := ((Nat.toDigits 10 d.digits).reverse.takeWhile (· == '0')).length
  ⟨d.digits / Nat.pow 10 zeros, d.exponent + zeros⟩

-- Seventeen digits always suffice, so the last answer is never taken.
def Binary.shortest (b : Binary) (tie : Tie) : Decimal :=
  let (top, bottom) := b.ratio
  let lead := leadingExponent top bottom
  let found := (List.range 17).findSome? fun (places : Nat) => b.nearest? tie (lead - places)
  (found.getD ⟨top, 0⟩).withoutTrailingZeros

end Spellcraft.Number
