import Spellcraft.Json.Value

set_option autoImplicit false

namespace Spellcraft

namespace Json

/-- What is given for a field: a value, nothing in a record, or nothing in a list too short. -/
inductive Slot where
  | given (value : Json)
  | missing
  | cut

def repeats : List String → Bool
  | [] => false
  | name :: others => others.contains name || repeats others

def field? (name : String) : List (Option String × Json) → Option Json
  | [] => none
  | (other, value) :: rest => if other = some name then some value else field? name rest

def slotOf (fields : List (Option String × Json)) (name : String) : Slot :=
  match field? name fields with
  | some value => .given value
  | none => .missing

def slots? (names : List String) : Json → Option (List Slot)
  | .record fields =>
    if fields.any fun field => field.1.isNone then none
    else if repeats (fields.filterMap fun field => field.1.filter names.contains) then none
    else some (names.map (slotOf fields))
  | .list items =>
    if names.length < items.length then none
    else some (items.map .given ++ List.replicate (names.length - items.length) .cut)
  | _ => none

namespace Slot

variable {α : Type}

def required (read : Json → Option α) : Slot → Option α
  | .given value => read value
  | .missing | .cut => none

def optional (read : Json → Option α) : Slot → Option (Option α)
  | .given .null => some none
  | .given value => (read value).map some
  | .missing => some none
  | .cut => none

def withDefault (default : α) (read : Json → Option α) : Slot → Option α
  | .given value => read value
  | .missing | .cut => some default

end Slot

def bool? : Json → Option Bool
  | .bool value => some value
  | _ => none

def string? : Json → Option String
  | .text value => value
  | _ => none

def real? : Json → Option Float
  | .number value => value.map Numeral.toFloat
  | _ => none

def natural64? : Json → Option UInt64
  | .number (some (.natural value)) => some value
  | _ => none

def natural32? (json : Json) : Option UInt32 :=
  (natural64? json).bind fun value => if value < 0x100000000 then some value.toUInt32 else none

def integer64? : Json → Option Int64
  | .number (some (.natural value)) =>
    if value < 0x8000000000000000 then some value.toInt64 else none
  | .number (some (.negative value)) => some value
  | _ => none

def integer32? (json : Json) : Option Int32 :=
  (integer64? json).bind fun value =>
    if -0x80000000 ≤ value ∧ value ≤ 0x7FFFFFFF then some value.toInt32 else none

def list? {α : Type} (read : Json → Option α) : Json → Option (List α)
  | .list items => items.mapM read
  | _ => none

/-- A name that stands alone, or as the only field of a record over null. -/
def name? : Json → Option String
  | .text value => value
  | .record [(name, .null)] => name
  | _ => none

def looseName? : Json → Option String
  | .record [(name, .record [])] => name
  | json => json.name?

end Json

end Spellcraft
