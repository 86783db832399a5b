import Spellcraft.Number.Layout

set_option autoImplicit false

namespace Spellcraft.Number

def digitsValue (digits : List Char) : Nat :=
  digits.foldl (fun value digit => 10 * value + (digit.toNat - '0'.toNat)) 0

def natural? (text : List Char) : Option Nat :=
  if text.isEmpty || !text.all Char.isDigit then none else some (digitsValue text)

def word32? (text : List Char) : Option UInt32 :=
  (natural? text).bind fun n => if n < UInt32.size then some n.toUInt32 else none

def infinity : Float :=
  1.0 / 0.0

def notANumber : Float :=
  0.0 / 0.0

/-- The double nearest to `d`. Outside `1e-400` to `1e400` it is zero or infinite, whatever the
digits. -/
def Decimal.toFloat (d : Decimal) : Float :=
  let lead := d.exponent + digitCount d.digits
  if d.digits = 0 ∨ lead < -400 then 0.0
  else if 400 < lead then infinity
  else if d.exponent < 0 then Float.ofScientific d.digits true (-d.exponent).toNat
  else Float.ofScientific d.digits false d.exponent.toNat

def splitSign : List Char → Bool × List Char
  | '-' :: rest => (true, rest)
  | '+' :: rest => (false, rest)
  | rest => (false, rest)

def exponent? : List Char → Option Int
  | [] => some 0
  | mark :: rest =>
    if mark = 'e' ∨ mark = 'E' then
      let (negative, digits) := splitSign rest
      (natural? digits).map fun n => if negative then -(n : Int) else n
    else none

def decimal? (text : List Char) : Option Decimal :=
  let whole := text.takeWhile Char.isDigit
  let (fraction, rest) :=
    match text.dropWhile Char.isDigit with
    | '.' :: rest => (rest.takeWhile Char.isDigit, rest.dropWhile Char.isDigit)
    | rest => ([], rest)
  if whole.isEmpty && fraction.isEmpty then none
  else
    (exponent? rest).map fun e => ⟨digitsValue (whole ++ fraction), e - (fraction.length : Int)⟩

def literal? (text : List Char) : Option Float :=
  let (negative, body) := splitSign text
  let word := String.ofList (body.map Char.toLower)
  let size :=
    if word = "inf" ∨ word = "infinity" then some infinity
    else if word = "nan" then some notANumber
    else (decimal? body).map Decimal.toFloat
  size.map fun x => if negative then -x else x

end Spellcraft.Number
