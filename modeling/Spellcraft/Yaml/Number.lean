import Spellcraft.Number.Hexadecimal
import Spellcraft.Number.Literal
import Spellcraft.Yaml.Node

set_option autoImplicit false

namespace Spellcraft.Yaml

def dropPlus (text : List Char) : List Char :=
  match text with
  | '+' :: rest => rest
  | _ => text

def digitsIn? (base : Nat) (text : List Char) : Option Nat :=
  let digits := dropPlus text
  if digits.isEmpty then none
  else
    digits.foldlM (fun value c =>
      (Number.hexValue? c).bind fun digit =>
        if digit < base then some (base * value + digit) else none) 0

def based? (text : List Char) : Option Nat :=
  match text with
  | '0' :: 'x' :: rest => if rest.head? = some '+' then none else digitsIn? 16 rest
  | '0' :: 'o' :: rest => if rest.head? = some '+' then none else digitsIn? 8 rest
  | '0' :: 'b' :: rest => if rest.head? = some '+' then none else digitsIn? 2 rest
  | _ => none

def hasLeadingZero (text : List Char) : Bool :=
  match text with
  | '0' :: rest => !rest.isEmpty && rest.all Char.isDigit
  | _ => false

def natural? (text : List Char) : Option Nat :=
  let unsigned := dropPlus text
  match based? unsigned with
  | some value => some value
  | none =>
    if unsigned.head? = some '+' || hasLeadingZero unsigned then none else digitsIn? 10 unsigned

def real? (text : List Char) : Option Float :=
  let unsigned := dropPlus text
  let signed := unsigned.length < text.length
  if signed && (unsigned.head? = some '+' || unsigned.head? = some '-') then none
  else
    let word := String.ofList unsigned
    if word = ".inf" ∨ word = ".Inf" ∨ word = ".INF" then some Number.infinity
    else if word = "-.inf" ∨ word = "-.Inf" ∨ word = "-.INF" then some (-Number.infinity)
    else if !signed && (word = ".nan" || word = ".NaN" || word = ".NAN") then
      some Number.notANumber
    else (Number.literal? unsigned).filter Number.isFinite

def wholeTag : List Char := "tag:yaml.org,2002:int".toList
def realTag : List Char := "tag:yaml.org,2002:float".toList

def numberText? (kind : List Char) : Yaml → Option (List Char)
  | .scalar .plain _ text => some text
  | .scalar .literal (some tag) text => if tag = kind then some text else none
  | _ => none

def natural64? (node : Yaml) : Option UInt64 :=
  (numberText? wholeTag node).bind fun text =>
    (natural? text).bind fun n => if n < UInt64.size then some n.toUInt64 else none

def natural32? (node : Yaml) : Option UInt32 :=
  (natural64? node).bind fun value => if value < 0x100000000 then some value.toUInt32 else none

def number? (node : Yaml) : Option Float :=
  (numberText? realTag node).bind real?

end Spellcraft.Yaml
