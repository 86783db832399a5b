import Spellcraft.Reality.State
import Spellcraft.Reality.Verdict
import Spellcraft.Timeline
import Spellcraft.Wire.Spell

set_option autoImplicit false

namespace Spellcraft

def EffectId.toJson (id : EffectId) : Json :=
  .string (String.ofList id.text)

def EffectId.ofJson? (json : Json) : Option EffectId :=
  json.string?.bind fun text => EffectId.ofText? text.toList

def EffectKind.toJson (kind : EffectKind) : Json :=
  .string kind.name

def EffectKind.ofJson? (json : Json) : Option EffectKind :=
  json.name?.bind EffectKind.ofName?

def Feedback.toJson (feedback : Feedback) : Json :=
  .string feedback.name

def Feedback.ofJson? (json : Json) : Option Feedback :=
  json.name?.bind Feedback.ofName?

def Effect.toJson (effect : Effect) : Json :=
  .object [
    ("id", effect.id.toJson),
    ("kind", effect.kind.toJson),
    ("anchor_type", effect.anchor.kind.toJson),
    ("anchor_params", effect.anchor.parameters.toJson),
    ("shift_amount", .integer effect.shift),
    ("duration_ms", .natural effect.duration),
    ("start_ms", .natural effect.start),
    ("intensity", .real effect.intensity)]

def Effect.ofJson? (json : Json) : Option Effect := do
  match ← json.slots? ["id", "kind", "anchor_type", "anchor_params", "shift_amount",
      "duration_ms", "start_ms", "intensity"] with
  | [id, kind, anchorKind, parameters, shift, duration, start, intensity] =>
    return {
      id := ← id.required EffectId.ofJson?
      kind := ← kind.required EffectKind.ofJson?
      anchor := {
        kind := ← anchorKind.required AnchorKind.ofJson?
        parameters := ← parameters.required Parameters.ofJson? }
      shift := ← shift.required Json.integer64?
      duration := ← duration.required Json.natural64?
      start := ← start.required Json.natural64?
      intensity := ← intensity.required Json.real? }
  | _ => none

def Dimensions.toJson (dimensions : Dimensions) : Json :=
  .object [("width", .natural32 dimensions.width), ("height", .natural32 dimensions.height)]

def Dimensions.ofJson? (json : Json) : Option Dimensions := do
  match ← json.slots? ["width", "height"] with
  | [width, height] =>
    return {
      width := ← width.required Json.natural32?
      height := ← height.required Json.natural32? }
  | _ => none

def Reality.toJson (reality : Reality) : Json :=
  .object [
    ("energy_level", .real reality.energy),
    ("probability_shift", .real reality.probability),
    ("entropy_level", .real reality.entropy),
    ("time_speed", .real reality.timeSpeed),
    ("active_effects", .list (reality.effects.map Effect.toJson)),
    ("last_spell_focus", (reality.lastFocus.map Focus.toJson).getD .null),
    ("dimensions", reality.dimensions.toJson)]

def Reality.ofJson? (json : Json) : Option Reality := do
  match ← json.slots? ["energy_level", "probability_shift", "entropy_level", "time_speed",
      "active_effects", "last_spell_focus", "dimensions"] with
  | [energy, probability, entropy, timeSpeed, effects, lastFocus, dimensions] =>
    return {
      energy := ← energy.required Json.real?
      probability := ← probability.required Json.real?
      entropy := ← entropy.required Json.real?
      timeSpeed := ← timeSpeed.required Json.real?
      effects := ← effects.required (Json.list? Effect.ofJson?)
      lastFocus := ← lastFocus.optional Focus.ofJson?
      dimensions := ← dimensions.required Dimensions.ofJson? }
  | _ => none

def Verdict.toJson (verdict : Verdict) : Json :=
  .object ([("success", .bool verdict.success), ("message", .string verdict.message)] ++
    match verdict.feedback with
    | some feedback => [("feedback", feedback.toJson)]
    | none => [])

def Verdict.ofJson? (json : Json) : Option Verdict := do
  match ← json.slots? ["success", "message", "feedback"] with
  | [success, message, feedback] =>
    return {
      success := ← success.required Json.bool?
      message := ← message.required Json.string?
      feedback :=
        ← match feedback with
          | .cut => some none
          | slot => slot.optional Feedback.ofJson? }
  | _ => none

def Task.toJson : Task → Json
  | .expireEffect id => .object [("task", .string "expire_effect"), ("effect", id.toJson)]
  | .halveProbability => .object [("task", .string "halve_probability")]
  | .normalizeTime => .object [("task", .string "normalize_time")]

/-- A task that names no effect may say so with null. -/
def Task.withoutEffect? (task : Task) : Json.Slot → Option Task
  | .given .null | .missing => some task
  | _ => none

def Task.name? (json : Json) : Json.Slot → Option String :=
  match json with
  | .list _ => Json.Slot.required Json.string?
  | _ => Json.Slot.required Json.name?

def Task.ofJson? (json : Json) : Option Task := do
  match ← json.slots? ["task", "effect"] with
  | [task, effect] =>
    match ← Task.name? json task with
    | "expire_effect" => (effect.required EffectId.ofJson?).map .expireEffect
    | "halve_probability" => Task.halveProbability.withoutEffect? effect
    | "normalize_time" => Task.normalizeTime.withoutEffect? effect
    | _ => none
  | _ => none

def PendingTask.toJson (pending : PendingTask) : Json :=
  .object [("due_ms", .natural pending.due), ("task", pending.task.toJson)]

def PendingTask.ofJson? (json : Json) : Option PendingTask := do
  match ← json.slots? ["due_ms", "task"] with
  | [due, task] =>
    return {
      due := ← due.required Json.natural64?
      task := ← task.required Task.ofJson? }
  | _ => none

end Spellcraft
