import Spellcraft.Json.Value
import Spellcraft.Number.Hexadecimal
import Spellcraft.Number.Layout

set_option autoImplicit false

namespace Spellcraft.Json

def escape (c : Char) : List Char :=
  match c with
  | '"' => ['\\', '"']
  | '\\' => ['\\', '\\']
  | '\x08' => ['\\', 'b']
  | '\x0c' => ['\\', 'f']
  | '\n' => ['\\', 'n']
  | '\r' => ['\\', 'r']
  | '\t' => ['\\', 't']
  | c => if c.toNat < 0x20 then '\\' :: 'u' :: Number.hexDigits 4 c.toNat else [c]

def quote (text : String) : List Char :=
  '"' :: text.toList.flatMap escape ++ ['"']

def nullText : List Char :=
  ['n', 'u', 'l', 'l']

def Numeral.text : Numeral → List Char
  | natural value => Number.naturalText value.toNat
  | negative value => Number.integerText value.toInt
  | real value => (Number.wire? value).getD nullText

def leafText : Json → List Char
  | .bool true => ['t', 'r', 'u', 'e']
  | .bool false => ['f', 'a', 'l', 's', 'e']
  | .number (some value) => value.text
  | .text (some value) => quote value
  | _ => nullText

def nameText (name : Option String) : List Char :=
  quote (name.getD "")

mutual

def compact : Json → List Char
  | .list items => '[' :: compactItems items ++ [']']
  | .record fields => '\x7b' :: compactFields fields ++ ['\x7d']
  | leaf => leafText leaf

def compactItems : List Json → List Char
  | [] => []
  | [item] => compact item
  | item :: others => compact item ++ ',' :: compactItems others

def compactFields : List (Option String × Json) → List Char
  | [] => []
  | [(name, value)] => nameText name ++ ':' :: compact value
  | (name, value) :: others =>
    nameText name ++ ':' :: compact value ++ ',' :: compactFields others

end

def newLine (level : Nat) : List Char :=
  '\n' :: List.replicate (2 * level) ' '

mutual

def pretty (level : Nat) : Json → List Char
  | .list [] => ['[', ']']
  | .record [] => ['\x7b', '\x7d']
  | .list items => '[' :: prettyItems (level + 1) items ++ newLine level ++ [']']
  | .record fields => '\x7b' :: prettyFields (level + 1) fields ++ newLine level ++ ['\x7d']
  | leaf => leafText leaf

def prettyItems (level : Nat) : List Json → List Char
  | [] => []
  | [item] => newLine level ++ pretty level item
  | item :: others => newLine level ++ pretty level item ++ ',' :: prettyItems level others

def prettyFields (level : Nat) : List (Option String × Json) → List Char
  | [] => []
  | [(name, value)] => newLine level ++ nameText name ++ ':' :: ' ' :: pretty level value
  | (name, value) :: others =>
    newLine level ++ nameText name ++ ':' :: ' ' :: pretty level value ++
      ',' :: prettyFields level others

end

end Spellcraft.Json
