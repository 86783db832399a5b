import Spellcraft.Proofs.Engine.Operation

/-!
Histories: what a host does with engines from a new one on, with a record of every spell that was
cast, of the effects that each one created, and of every event, also of those that have left the
log. A host may put another engine in the place of the one it has.
-/

set_option autoImplicit false

namespace Spellcraft

/-- A spell as it was cast, and the effects that stand behind the earlier ones after it. -/
structure Casting where
  spell : Spell
  reading : UInt64
  verdict : Verdict
  created : List Effect
deriving DecidableEq

/-- An unprivileged spell leaves an effect if it is accepted, a privileged one if it opens the
kernel. -/
def Casting.leavesEffect (casting : Casting) : Bool :=
  if casting.spell.isPrivileged then
    Keyword.chosen? casting.spell.keywords == some .kernelSpace
  else casting.verdict.success

def Casting.Creates (casting : Casting) : Prop :=
  casting.created.map (fun effect => (effect.anchor, effect.start)) =
    if casting.leavesEffect then [(casting.spell.anchor, casting.reading)] else []

namespace Engine

def castings (now : UInt64) : List Spell → Engine → List Casting
  | [], _ => []
  | spell :: others, engine =>
    match engine.castOne now spell with
    | .error _ => []
    | .ok (verdict, next) =>
      -- Spells after a refused one are not cast.
      ⟨spell, now, verdict, next.reality.effects.drop engine.reality.effects.length⟩ ::
        if verdict.success then castings now others next else []

def Operation.castings (now : UInt64) (engine : Engine) : Operation → List Casting
  | .cast spells => Engine.castings now spells engine
  | .runDue | .sweep | .tick | .override .. | .setDimensions _ | .drain => []

def Answer.leaving : Answer → List Event
  | .drained events => events
  | .verdict _ | .count _ | .held _ | .done => []

end Engine

inductive Turn where
  | operate (operation : Engine.Operation)
  | rebuild (laws : Laws)
  | restart (laws : Laws)
deriving DecidableEq

structure History where
  engine : Engine
  castings : List Casting
  -- The events that are no longer in the log.
  past : List Event

namespace History

def start (laws : Laws) (ids : IdSupply) : History :=
  ⟨.new laws ids, [], []⟩

def created (history : History) : List Effect :=
  history.castings.flatMap Casting.created

def events (history : History) : List Event :=
  history.past ++ history.engine.events

def replace (history : History) (laws : Laws) (pending : List PendingTask) : History where
  engine := .ofParts laws history.engine.ids history.engine.reality pending
  castings := history.castings
  past := history.events

def step (history : History) (now : UInt64) : Turn → Except Fault History
  | .operate operation => do
    let (answer, engine) ← history.engine.perform now operation
    return {
      engine := engine
      castings := history.castings ++ operation.castings now history.engine
      past := history.past ++ answer.leaving }
  | .rebuild laws => .ok (history.replace laws history.engine.timeline.pending)
  | .restart laws => .ok (history.replace laws [])

def run (history : History) (turns : List (UInt64 × Turn)) : Except Fault History :=
  turns.foldlM (fun history (now, turn) => history.step now turn) history

theorem step_onward {history next : History} {now : UInt64} {turn : Turn}
    (stepped : history.step now turn = .ok next) :
    history.engine.ids.Onward next.engine.ids ∧ history.created <+: next.created := by
  cases turn with
  | operate operation =>
    obtain ⟨⟨answer, engine⟩, performed, done⟩ := Fault.bind_eq_ok.1 stepped
    cases done
    refine ⟨(Engine.perform_onward performed).ids, ?_⟩
    simp [created]
  | rebuild | restart =>
    cases stepped
    exact ⟨.refl _, List.prefix_rfl⟩

end History

end Spellcraft
