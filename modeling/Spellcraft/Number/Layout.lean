import Spellcraft.Number.Shortest

set_option autoImplicit false

namespace Spellcraft.Number

def naturalText (n : Nat) : List Char :=
  Nat.toDigits 10 n

def naturalString (n : Nat) : String :=
  String.ofList (naturalText n)

def integerText (n : Int) : List Char :=
  if n < 0 then '-' :: naturalText n.natAbs else naturalText n.natAbs

-- The sign is written for positive numbers too.
def signedText (n : Int) : List Char :=
  if n < 0 then integerText n else '+' :: integerText n

def zeros (count : Nat) : List Char :=
  List.replicate count '0'

def positional (d : Decimal) : List Char :=
  let digits := naturalText d.digits
  if 0 ≤ d.exponent then
    digits ++ zeros d.exponent.toNat
  else
    let places := (-d.exponent).toNat
    let padded := zeros (places + 1 - digits.length) ++ digits
    let whole := padded.length - places
    padded.take whole ++ '.' :: padded.drop whole

def scientific (d : Decimal) : List Char :=
  let digits := naturalText d.digits
  let exponent := signedText (d.exponent + (digits.length - 1 : Nat))
  match digits with
  | [] => []
  | [first] => first :: 'e' :: exponent
  | first :: others => first :: '.' :: others ++ 'e' :: exponent

def withSign (x : Float) (text : List Char) : List Char :=
  if isNegative x then '-' :: text else text

def plain (x : Float) : List Char :=
  match magnitude x with
  | .zero => withSign x ['0']
  | .finite value => withSign x (positional (value.shortest .up))
  | .infinite => withSign x ['i', 'n', 'f']
  | .notNumber => ['N', 'a', 'N']

def wireDecimal (d : Decimal) : List Char :=
  let lead := d.exponent + ((naturalText d.digits).length - 1 : Nat)
  if -5 ≤ lead ∧ lead < 16 then
    if 0 ≤ d.exponent then positional d ++ ['.', '0'] else positional d
  else
    scientific d

def wire? (x : Float) : Option (List Char) :=
  match magnitude x with
  | .zero => some (withSign x ['0', '.', '0'])
  | .finite value => some (withSign x (wireDecimal (value.shortest .even)))
  | .infinite | .notNumber => none

def roundHalfEven (top bottom : Nat) : Nat :=
  let below := top / bottom
  let left := 2 * (top % bottom)
  if left < bottom then below
  else if bottom < left then below + 1
  else if below % 2 = 0 then below else below + 1

def fixed (places : Nat) (x : Float) : List Char :=
  match magnitude x with
  | .zero => withSign x (positional ⟨0, -places⟩)
  | .finite value =>
    let (top, bottom) := value.ratio
    withSign x (positional ⟨roundHalfEven (top * Nat.pow 10 places) bottom, -places⟩)
  | .infinite => withSign x ['i', 'n', 'f']
  | .notNumber => ['N', 'a', 'N']

end Spellcraft.Number
