import Spellcraft.Chronicle
import Spellcraft.Wire.Reality

set_option autoImplicit false

namespace Spellcraft

def Phenomenon.toJson : Phenomenon → Json
  | .spellCast id time cost fragment =>
    .object [
      ("type", .string "spell_cast"),
      ("id", id.toJson),
      ("timestamp_ms", .natural time),
      ("energy_cost", .natural32 cost),
      ("spell_fragment", .string fragment)]
  | .feedback id time kind intensity =>
    .object [
      ("type", .string "feedback"),
      ("id", id.toJson),
      ("timestamp_ms", .natural time),
      ("feedback", kind.toJson),
      ("intensity", .real intensity)]

def Phenomenon.spellCastOf? (json : Json) : Option Phenomenon := do
  match ← json.slots? ["id", "timestamp_ms", "energy_cost", "spell_fragment"] with
  | [id, time, cost, fragment] =>
    return .spellCast (← id.required EffectId.ofJson?) (← time.required Json.natural64?)
      (← cost.required Json.natural32?) (← fragment.required Json.string?)
  | _ => none

def Feedback.ofLooseJson? (json : Json) : Option Feedback :=
  json.looseName?.bind Feedback.ofName?

def Phenomenon.feedbackOf? (json : Json) : Option Phenomenon := do
  match ← json.slots? ["id", "timestamp_ms", "feedback", "intensity"] with
  | [id, time, kind, intensity] =>
    return .feedback (← id.required EffectId.ofJson?) (← time.required Json.natural64?)
      (← kind.required Feedback.ofLooseJson?) (← intensity.required Json.real?)
  | _ => none

def Phenomenon.split? : Json → Option (String × Json)
  | .record fields =>
    match fields.filter fun field => decide (field.1 = some "type") with
    | [(_, .text (some type))] =>
      some (type, .record (fields.filter fun field => !decide (field.1 = some "type")))
    | _ => none
  | .list (.text (some type) :: others) => some (type, .list others)
  | _ => none

-- Reads a phenomenon that is itself nested `outer` deep.
def Phenomenon.ofJson? (outer : Nat) (json : Json) : Option Phenomenon :=
  if json.isReadable && json.depth + outer ≤ Json.nestingLimit then
    match Phenomenon.split? json with
    | some ("spell_cast", rest) => Phenomenon.spellCastOf? rest
    | some ("feedback", rest) => Phenomenon.feedbackOf? rest
    | _ => none
  else none

def ChronicleStatus.toJson (status : ChronicleStatus) : Json :=
  .object [
    ("phenomena", .list (status.phenomena.map Phenomenon.toJson)),
    ("system_integrity", .integer status.integrity.toInt64),
    ("anomaly_level", .real status.anomaly)]

def ChronicleStatus.ofJson? (json : Json) : Option ChronicleStatus := do
  match ← json.slots? ["phenomena", "system_integrity", "anomaly_level"] with
  | [phenomena, integrity, anomaly] =>
    return {
      phenomena := ← phenomena.required (Json.list? (Phenomenon.ofJson? 2))
      integrity := ← integrity.required Json.integer32?
      anomaly := ← anomaly.required Json.real? }
  | _ => none

end Spellcraft
