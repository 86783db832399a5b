import Spellcraft.Number.Bounds

set_option autoImplicit false

namespace Spellcraft

namespace Json

inductive Numeral where
  | natural (value : UInt64)
  | negative (value : Int64)
  | real (value : Float)
deriving DecidableEq

def Numeral.toFloat : Numeral → Float
  | natural value => value.toFloat
  | negative value => Number.ofInteger value.toInt
  | real value => value

end Json

inductive Json where
  | null
  | bool (value : Bool)
  | number (value : Option Json.Numeral)
  | text (value : Option String)
  | list (items : List Json)
  | record (fields : List (Option String × Json))

namespace Json

def natural (value : UInt64) : Json :=
  .number (some (.natural value))

def natural32 (value : UInt32) : Json :=
  natural value.toUInt64

-- Whole numbers that are not below zero have one form.
def integer (value : Int64) : Json :=
  if value < 0 then .number (some (.negative value)) else natural value.toUInt64

def real (value : Float) : Json :=
  .number (some (.real value))

def string (value : String) : Json :=
  .text (some value)

def object (fields : List (String × Json)) : Json :=
  .record (fields.map fun (name, value) => (some name, value))

mutual

def depth : Json → Nat
  | .null | .bool _ | .number _ | .text _ => 0
  | .list items => depthOfItems items + 1
  | .record fields => depthOfFields fields + 1

def depthOfItems : List Json → Nat
  | [] => 0
  | item :: others => max (depth item) (depthOfItems others)

def depthOfFields : List (Option String × Json) → Nat
  | [] => 0
  | (_, value) :: others => max (depth value) (depthOfFields others)

end

mutual

def isReadable : Json → Bool
  | .null | .bool _ => true
  | .number value => value.isSome
  | .text value => value.isSome
  | .list items => itemsReadable items
  | .record fields => fieldsReadable fields

def itemsReadable : List Json → Bool
  | [] => true
  | item :: others => isReadable item && itemsReadable others

def fieldsReadable : List (Option String × Json) → Bool
  | [] => true
  | (name, value) :: others => name.isSome && isReadable value && fieldsReadable others

end

def nestingLimit : Nat := 127

end Json

end Spellcraft
