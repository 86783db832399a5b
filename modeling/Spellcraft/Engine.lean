import Spellcraft.Number.Word
import Spellcraft.Reality.Rules

set_option autoImplicit false

namespace Spellcraft

inductive Event where
  | spellApplied (focus : Focus) (shift : Int) (message : String)
  | spellRejected (focus : Focus) (shift : Int) (feedback : Option Feedback) (message : String)
  | effectExpired (id : EffectId)
  | probabilityCorrected (before after : Float)
  | timeNormalized (before after : Float)
  | parameterOverridden (focus : Focus) (value : Float)
deriving DecidableEq

structure Engine where
  laws : Laws
  reality : Reality
  timeline : Timeline
  events : List Event
  ids : IdSupply

namespace Engine

def ofParts (laws : Laws) (ids : IdSupply) (reality : Reality) (pending : List PendingTask) :
    Engine where
  laws := laws
  reality := reality
  timeline := .ofList pending
  events := []
  ids := ids

def new (laws : Laws) (ids : IdSupply) : Engine :=
  ofParts laws ids {} []

def log (engine : Engine) (event : Event) : Engine :=
  { engine with events := engine.events ++ [event] }

def clearLog (engine : Engine) : Engine :=
  { engine with events := [] }

def setDimensions (engine : Engine) (dimensions : Dimensions) : Engine :=
  { engine with reality := { engine.reality with dimensions } }

def schedule (engine : Engine) (now delay : UInt64) (task : Task) : Engine :=
  let due := Number.capped64 (now.toNat + delay.toNat)
  { engine with timeline := engine.timeline.schedule due task }

def addEffect (engine : Engine) (now : UInt64) (anchor : Anchor) (plan : EffectPlan) : Engine :=
  let effect : Effect := {
    id := engine.ids.next
    kind := plan.kind
    anchor := anchor
    shift := plan.shift
    duration := plan.duration
    start := now
    intensity := plan.intensity }
  let grown := { engine with
    reality := { engine.reality with effects := engine.reality.effects ++ [effect] }
    ids := engine.ids.advance }
  grown.schedule now plan.duration (.expireEffect effect.id)

def settle (engine : Engine) (now : UInt64) (anchor : Anchor) (outcome : Outcome) : Engine :=
  let grown :=
    match outcome.effect with
    | some plan => engine.addEffect now anchor plan
    | none => engine
  outcome.deferred.foldl (fun engine (delay, task) => engine.schedule now delay task) grown

def castOne (engine : Engine) (now : UInt64) (spell : Spell) :
    Except Fault (Verdict × Engine) := do
  let (outcome, reality) ← engine.reality.cast engine.laws spell
  let cast := { engine with reality }
  let verdict := outcome.verdict
  let shift := spell.shift.signed
  if verdict.success then
    let settled := cast.settle now spell.anchor outcome
    return (verdict, settled.log (.spellApplied spell.focus shift verdict.message))
  else
    return (verdict,
      cast.log (.spellRejected spell.focus shift verdict.feedback verdict.message))

def cast (now : UInt64) : List Spell → Engine → Except Fault (Verdict × Engine)
  | [], engine => .ok (.accepted .allCast, engine)
  | spell :: others, engine => do
    let (verdict, engine) ← engine.castOne now spell
    if verdict.success then cast now others engine else return (verdict, engine)

def fire (engine : Engine) (task : Task) : Except Fault Engine :=
  match task with
  | .expireEffect id =>
    let effects := engine.reality.effects.filter fun effect => !decide (effect.id = id)
    if effects.length = engine.reality.effects.length then .ok engine
    else .ok ({ engine with reality := { engine.reality with effects } }.log (.effectExpired id))
  | .halveProbability =>
    let before := engine.reality.probability
    let probability := before / 2.0
    .ok ({ engine with reality := { engine.reality with probability } }.log
      (.probabilityCorrected before probability))
  | .normalizeTime => do
    let before := engine.reality.timeSpeed
    let timeSpeed ←
      Reality.confine? engine.laws.normalTimeMin engine.laws.normalTimeMax before
    if timeSpeed != before then
      return { engine with reality := { engine.reality with timeSpeed } }.log
        (.timeNormalized before timeSpeed)
    else return engine

-- No task schedules another.
def runDue (engine : Engine) (now : UInt64) : Except Fault (Nat × Engine) := do
  let tasks := engine.timeline.due now
  let fired ← tasks.foldlM fire { engine with timeline := engine.timeline.after now }
  return (tasks.length, fired)

def sweep (engine : Engine) (now : UInt64) : Nat × Engine :=
  let expired := engine.reality.effects.filter (·.isExpired now)
  let effects := engine.reality.effects.filter fun effect => !effect.isExpired now
  (expired.length,
    { engine with
      reality := { engine.reality with effects }
      events := engine.events ++ expired.map fun effect => .effectExpired effect.id })

def tick (engine : Engine) (now : UInt64) : Except Fault (Nat × Engine) := do
  let (fired, engine) ← engine.runDue now
  let (swept, engine) := engine.sweep now
  return (fired + swept, engine)

def overrideRange : Focus → Float × Float
  | .time => (0.1, 2.0)
  | .energy | .probability | .entropy => (0.0, 100.0)

def override (engine : Engine) (focus : Focus) (value : Float) : Float × Engine :=
  let (low, high) := overrideRange focus
  let held := Number.confine low high value
  let reality := { engine.reality.set focus held with lastFocus := some focus }
  (held, { engine with reality }.log (.parameterOverridden focus held))

end Engine

end Spellcraft
