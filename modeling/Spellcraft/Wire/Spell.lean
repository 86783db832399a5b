import Spellcraft.Json.Slot
import Spellcraft.Spell.Spell

set_option autoImplicit false

namespace Spellcraft

def Focus.toJson (focus : Focus) : Json :=
  .string focus.name

def Focus.ofJson? (json : Json) : Option Focus :=
  json.name?.bind Focus.ofName?

def AnchorKind.toJson (kind : AnchorKind) : Json :=
  .string kind.name

def AnchorKind.ofJson? (json : Json) : Option AnchorKind :=
  json.name?.bind AnchorKind.ofName?

def Direction.name (direction : Direction) : String :=
  String.ofList [direction.sign]

def Direction.ofName? (name : String) : Option Direction :=
  match name.toList with
  | [sign] => Direction.ofSign? sign
  | _ => none

def Direction.toJson (direction : Direction) : Json :=
  .string direction.name

def Direction.ofJson? (json : Json) : Option Direction :=
  json.name?.bind Direction.ofName?

def Keyword.toJson (keyword : Keyword) : Json :=
  .string keyword.name

def Keyword.ofJson? (json : Json) : Option Keyword :=
  json.name?.bind Keyword.ofName?

def ParameterValue.toJson : ParameterValue → Json
  | .number value => .real value
  | .text value => .string value

def ParameterValue.ofJson? : Json → Option ParameterValue
  | .number value => value.map fun value => .number value.toFloat
  | .text value => value.map .text
  | _ => none

def Parameter.ofField? (field : Option String × Json) : Option Parameter :=
  match field.1, ParameterValue.ofJson? field.2 with
  | some key, some value => some (key, value)
  | _, _ => none

def Parameters.toJson (parameters : Parameters) : Json :=
  .object (parameters.entries.map fun (key, value) => (key, value.toJson))

def Parameters.ofJson? : Json → Option Parameters
  | .record fields => (fields.mapM Parameter.ofField?).map Parameters.ofList
  | _ => none

def Anchor.toJson (anchor : Anchor) : Json :=
  .object [("type", anchor.kind.toJson), ("params", anchor.parameters.toJson)]

def Anchor.ofJson? (json : Json) : Option Anchor := do
  match ← json.slots? ["type", "params"] with
  | [kind, parameters] =>
    return {
      kind := ← kind.required AnchorKind.ofJson?
      parameters := ← parameters.required Parameters.ofJson? }
  | _ => none

def Shift.toJson (shift : Shift) : Json :=
  .object [("direction", shift.direction.toJson), ("amount", .natural32 shift.amount)]

def Shift.ofJson? (json : Json) : Option Shift := do
  match ← json.slots? ["direction", "amount"] with
  | [direction, amount] =>
    return {
      direction := ← direction.required Direction.ofJson?
      amount := ← amount.required Json.natural32? }
  | _ => none

def Spell.toJson (spell : Spell) : Json :=
  .object [
    ("focus", spell.focus.toJson),
    ("anchor", spell.anchor.toJson),
    ("shift", spell.shift.toJson),
    ("cost", .natural32 spell.declaredCost),
    ("intent", .string spell.intent),
    ("is_bound", .bool spell.isBound),
    ("is_sealed", .bool spell.isSealed),
    ("uses_hidden_protocol", .bool spell.isPrivileged),
    ("protocol_keywords", .list (spell.keywords.map Keyword.toJson))]

def Spell.ofJson? (json : Json) : Option Spell := do
  match ← json.slots? ["focus", "anchor", "shift", "cost", "intent", "is_bound", "is_sealed",
      "uses_hidden_protocol", "protocol_keywords"] with
  | [focus, anchor, shift, cost, intent, isBound, isSealed, isPrivileged, keywords] =>
    return {
      focus := ← focus.required Focus.ofJson?
      anchor := ← anchor.required Anchor.ofJson?
      shift := ← shift.required Shift.ofJson?
      declaredCost := ← cost.required Json.natural32?
      intent := ← intent.required Json.string?
      isBound := ← isBound.required Json.bool?
      isSealed := ← isSealed.required Json.bool?
      isPrivileged := ← isPrivileged.required Json.bool?
      keywords := ← keywords.required (Json.list? Keyword.ofJson?) }
  | _ => none

end Spellcraft
