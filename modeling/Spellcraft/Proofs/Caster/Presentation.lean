import Spellcraft.Proofs.Caster.Action
import Spellcraft.Proofs.Engine.Presentation

set_option autoImplicit false

namespace Spellcraft.Caster

structure Marks where
  aimed : Bool
  noted : Bool
deriving DecidableEq

/-- A caster with what its session has set, and without dimensions and log. -/
def core (marks : Marks) (caster : Caster) : Caster :=
  { caster with
    engine := caster.engine.core marks.aimed
    ledger := { caster.ledger with
      draftCost := if marks.noted then caster.ledger.draftCost else 0 } }

namespace Marks

def note (marks : Marks) : Marks :=
  { marks with noted := true }

def aim (marks : Marks) (aims : Bool) : Marks :=
  { marks with aimed := marks.aimed || aims }

-- A cast that is not afforded does not reach the engine.
def castCompiled (marks : Marks) (caster : Caster) (compiled : Compiled) : Marks :=
  marks.aim (caster.ledger.affords compiled.cost && !compiled.spells.isEmpty)

def perform (marks : Marks) (caster : Caster) : Action → Marks
  | .compile script =>
    match caster.compile script with
    | .error _ => marks
    | .ok _ => marks.note
  | .cast script =>
    match caster.compile script with
    | .error _ => marks
    | .ok (compiled, noted) => marks.note.castCompiled noted compiled
  | .castCompiled compiled => marks.castCompiled caster compiled
  | .engine operation => marks.aim operation.aims
  | .regenerate | .tick | .resume => marks

end Marks

theorem core_core (marks : Marks) (caster : Caster) :
    (caster.core marks).core marks = caster.core marks := by
  obtain ⟨aimed, noted⟩ := marks
  cases aimed <;> cases noted <;> rfl

theorem regenerate_core (marks : Marks) (caster : Caster) :
    (caster.core marks).regenerate.core marks = caster.regenerate.core marks := by
  obtain ⟨aimed, noted⟩ := marks
  cases aimed <;> cases noted <;> rfl

theorem castCompiled_core (marks : Marks) (caster : Caster) (now : UInt64)
    (compiled : Compiled) :
    ((caster.core marks).castCompiled now compiled).map
        (Prod.map id (core (marks.castCompiled caster compiled))) =
      (caster.castCompiled now compiled).map
        (Prod.map id (core (marks.castCompiled caster compiled))) := by
  have energy : (caster.core marks).ledger.energy = caster.ledger.energy := rfl
  have engines : (caster.core marks).engine.core marks.aimed = caster.engine.core marks.aimed :=
    congrArg Caster.engine (core_core marks caster)
  by_cases affordable : caster.ledger.affords compiled.cost = true
  · have alike : (caster.core marks).ledger.affords compiled.cost = true := affordable
    simp only [castCompiled, Marks.castCompiled, Marks.aim, affordable, alike, if_true,
      Bool.true_and]
    apply Fault.map_bind_pair (Engine.cast_of_core engines now compiled.spells)
    intro verdict engine last moved
    have moved : engine.clearLog.core (marks.aimed || !compiled.spells.isEmpty) =
        last.clearLog.core (marks.aimed || !compiled.spells.isEmpty) := moved
    obtain ⟨aimed, noted⟩ := marks
    cases verdict.success <;> cases noted <;> simp [core, moved, Except.map, Ledger.spend]
  · have alike : ¬ (caster.core marks).ledger.affords compiled.cost = true := affordable
    simp only [castCompiled, Marks.castCompiled, Marks.aim, affordable, alike, Bool.false_and,
      Bool.or_false]
    simp [Except.map, core_core, energy]

def note (caster : Caster) (cost : UInt32) : Caster :=
  { caster with ledger := caster.ledger.noteDraft cost }

theorem note_core (marks : Marks) (caster : Caster) (cost : UInt32) :
    ((caster.core marks).note cost).core marks.note = (caster.note cost).core marks.note := by
  obtain ⟨aimed, noted⟩ := marks
  cases aimed <;> rfl

theorem compile_ok {script : String} {spells : List Spell}
    (read : Spell.ofScript script = .ok spells) (caster : Caster) :
    caster.compile script =
      .ok (⟨spells, caster.rates.price spells⟩, caster.note (caster.rates.price spells)) := by
  rw [compile, read]
  rfl

/-- Scripts that are refused alike, or that differ in their authors' estimates and intents alone. -/
inductive ScriptTwin (script other : String) : Prop where
  | refused (error : ScriptError) (left : Spell.ofScript script = .error error)
      (right : Spell.ofScript other = .error error)
  | read (spells others : List Spell) (left : Spell.ofScript script = .ok spells)
      (right : Spell.ofScript other = .ok others)
      (same : spells.map Spell.essence = others.map Spell.essence)

inductive Action.Twin : Action → Action → Prop where
  | compile {script other : String} (twin : ScriptTwin script other) :
      Twin (.compile script) (.compile other)
  | cast {script other : String} (twin : ScriptTwin script other) :
      Twin (.cast script) (.cast other)
  | castCompiled {spells others : List Spell} (cost : UInt32)
      (same : spells.map Spell.essence = others.map Spell.essence) :
      Twin (.castCompiled ⟨spells, cost⟩) (.castCompiled ⟨others, cost⟩)
  | regenerate : Twin .regenerate .regenerate
  | tick : Twin .tick .tick
  | engine {operation other : Engine.Operation} (twin : operation.Twin other) :
      Twin (.engine operation) (.engine other)

def Answer.essence : Answer → Answer
  | .compiled (.ok ⟨spells, cost⟩) => .compiled (.ok ⟨spells.map Spell.essence, cost⟩)
  | answer => answer

section Core

variable {left right : Caster} {marks : Marks} (same : left.core marks = right.core marks)

include same

theorem engine_of_core : left.engine.core marks.aimed = right.engine.core marks.aimed :=
  congrArg Caster.engine same

theorem note_of_core (cost : UInt32) :
    (left.note cost).core marks.note = (right.note cost).core marks.note := by
  rw [← note_core, same, note_core]

theorem regenerate_of_core : left.regenerate.core marks = right.regenerate.core marks := by
  rw [← regenerate_core, same, regenerate_core]

theorem price_of_core {spells others : List Spell}
    (essences : spells.map Spell.essence = others.map Spell.essence) :
    left.rates.price spells = right.rates.price others := by
  have kept (caster : Caster) : (caster.core marks).rates = caster.rates := rfl
  rw [← kept left, same, kept, right.rates.price_of_essence essences]

theorem affords_of_core (cost : UInt32) : left.ledger.affords cost = right.ledger.affords cost :=
  congrArg (fun caster => caster.ledger.affords cost) same

theorem castCompiled_marks {spells others : List Spell} (cost : UInt32)
    (essences : spells.map Spell.essence = others.map Spell.essence) :
    marks.castCompiled left ⟨spells, cost⟩ = marks.castCompiled right ⟨others, cost⟩ := by
  simp only [Marks.castCompiled, affords_of_core same, Spell.isEmpty_of_essence essences]

theorem castCompiled_of_core {spells others : List Spell} (now : UInt64) (cost : UInt32)
    (essences : spells.map Spell.essence = others.map Spell.essence) :
    (left.castCompiled now ⟨spells, cost⟩).map
        (Prod.map id (core (marks.castCompiled left ⟨spells, cost⟩))) =
      (right.castCompiled now ⟨others, cost⟩).map
        (Prod.map id (core (marks.castCompiled left ⟨spells, cost⟩))) := by
  have spent (caster : Caster) :
      caster.castCompiled now ⟨spells, cost⟩ = caster.castCompiled now ⟨others, cost⟩ := by
    simp only [castCompiled, Engine.cast_of_essence essences]
  rw [← castCompiled_core marks left, same, spent, castCompiled_marks same cost essences]
  exact castCompiled_core marks right now ⟨others, cost⟩

theorem engaged_of_core (aims : Bool) {engine other : Engine}
    (moved : engine.core (marks.aimed || aims) = other.core (marks.aimed || aims)) :
    ({ left with engine } : Caster).core (marks.aim aims) =
      ({ right with engine := other } : Caster).core (marks.aim aims) := by
  have inward (caster : Caster) (engine : Engine) :
      ({ caster with engine } : Caster).core (marks.aim aims) =
        { caster.core marks with engine := engine.core (marks.aimed || aims) } := rfl
  rw [inward, inward, same, moved]

theorem tick_of_core (now : UInt64) :
    (left.tick now).map (Prod.map id (core marks)) =
      (right.tick now).map (Prod.map id (core marks)) := by
  apply Fault.map_bind_pair (Engine.tick_of_core (engine_of_core same) now)
  intro fired engine last moved
  have cleared : engine.clearLog.core (marks.aimed || false) =
      last.clearLog.core (marks.aimed || false) := by
    rw [Bool.or_false]
    exact moved
  have engaged := engaged_of_core same false cleared
  rw [Marks.aim, Bool.or_false] at engaged
  exact congrArg (fun state => Except.ok (fired, state)) engaged

theorem perform_marks {action other : Action} (twin : action.Twin other) :
    marks.perform left action = marks.perform right other := by
  cases twin with
  | compile twin =>
    cases twin with
    | refused error script other =>
      simp only [Marks.perform, compile_error script, compile_error other]
    | read spells others script other essences =>
      simp only [Marks.perform, compile_ok script, compile_ok other]
  | cast twin =>
    cases twin with
    | refused error script other =>
      simp only [Marks.perform, compile_error script, compile_error other]
    | read spells others script other essences =>
      simp only [Marks.perform, compile_ok script, compile_ok other, price_of_core same essences]
      exact castCompiled_marks (note_of_core same _) _ essences
  | castCompiled cost essences => exact castCompiled_marks same cost essences
  | regenerate | tick => rfl
  | engine twin => exact congrArg marks.aim twin.aims

theorem perform_of_core {action other : Action} (twin : action.Twin other) (settings : Settings)
    (now : UInt64) :
    (left.perform settings now action).map
        (Prod.map Answer.essence (core (marks.perform left action))) =
      (right.perform settings now other).map
        (Prod.map Answer.essence (core (marks.perform left action))) := by
  cases twin with
  | compile twin =>
    cases twin with
    | refused error script other =>
      simp only [perform, Marks.perform, compile_error script, compile_error other]
      exact congrArg (fun caster => Except.ok (Answer.compiled (.error error), caster)) same
    | read spells others script other essences =>
      simp only [perform, Marks.perform, compile_ok script, compile_ok other,
        price_of_core same essences, Except.map, Prod.map_apply, Answer.essence, essences,
        note_of_core same]
  | cast twin =>
    cases twin with
    | refused error script other =>
      simp only [perform, Caster.cast, Marks.perform, compile_error script, compile_error other]
      exact congrArg (fun caster => Except.ok (Answer.report (.error error), caster)) same
    | read spells others script other essences =>
      have reported := castCompiled_of_core (note_of_core same (right.rates.price others)) now
        (right.rates.price others) essences
      simp only [perform, Caster.cast, Marks.perform, compile_ok script, compile_ok other,
        price_of_core same essences, bind_assoc]
      exact Fault.map_answer (fun report => Answer.report (.ok report)) Answer.essence reported
  | castCompiled cost essences =>
    exact Fault.map_answer (fun report => Answer.report (.ok report)) Answer.essence
      (castCompiled_of_core same now cost essences)
  | regenerate =>
    have regenerated := regenerate_of_core same
    have energy : left.regenerate.ledger.energy = right.regenerate.ledger.energy :=
      congrArg (fun caster => caster.ledger.energy) regenerated
    simp only [perform, Marks.perform, Except.map, Prod.map_apply, energy, regenerated]
  | tick => exact Fault.map_answer Answer.count Answer.essence (tick_of_core same now)
  | engine twin =>
    apply Fault.map_bind_pair (Engine.perform_of_core (engine_of_core same) twin now)
    intro answer engine last moved
    have engaged := engaged_of_core same _ moved
    exact congrArg (fun state => Except.ok (Answer.engine answer, state)) engaged

end Core

structure Sight where
  answer : Answer
  caster : Caster
  marks : Marks

def Sight.core (sight : Sight) : Answer × Caster :=
  (sight.answer.essence, sight.caster.core sight.marks)

def Action.resizes : Action → Bool
  | .engine (.setDimensions _) => true
  | .engine _ | .compile _ | .cast _ | .castCompiled _ | .regenerate | .tick | .resume => false

theorem Action.Twin.resizes {action other : Action} (twin : action.Twin other) :
    action.resizes = false ∧ other.resizes = false := by
  cases twin with
  | engine twin => cases twin <;> exact ⟨rfl, rfl⟩
  | compile | cast | castCompiled | regenerate | tick => exact ⟨rfl, rfl⟩

/-- A session, seen after each step but the changes of the dimensions. -/
def watch (settings : Settings) :
    List (UInt64 × Action) → Marks → Caster → Except Fault (List Sight)
  | [], _, _ => .ok []
  | (now, action) :: later, marks, caster => do
    let (answer, next) ← caster.perform settings now action
    let reached := marks.perform caster action
    let sights ← watch settings later reached next
    return if action.resizes then sights else ⟨answer, next, reached⟩ :: sights

/-- Sessions that are alike step by step, but for changes of the dimensions on either side. -/
inductive SideBySide : List (UInt64 × Action) → List (UInt64 × Action) → Prop where
  | done : SideBySide [] []
  | step {action other : Action} {steps others : List (UInt64 × Action)} (now : UInt64)
      (twin : action.Twin other) (later : SideBySide steps others) :
      SideBySide ((now, action) :: steps) ((now, other) :: others)
  | left {steps others : List (UInt64 × Action)} (now : UInt64) (dimensions : Dimensions)
      (later : SideBySide steps others) :
      SideBySide ((now, .engine (.setDimensions dimensions)) :: steps) others
  | right {steps others : List (UInt64 × Action)} (now : UInt64) (dimensions : Dimensions)
      (later : SideBySide steps others) :
      SideBySide steps ((now, .engine (.setDimensions dimensions)) :: others)

theorem watch_resize (settings : Settings) (now : UInt64) (dimensions : Dimensions)
    (later : List (UInt64 × Action)) (marks : Marks) (caster : Caster) :
    watch settings ((now, .engine (.setDimensions dimensions)) :: later) marks caster =
      watch settings later marks (caster.setDimensions dimensions) := by
  have unmarked : marks.perform caster (.engine (.setDimensions dimensions)) = marks := by
    simp [Marks.perform, Marks.aim, Engine.Operation.aims]
  have watched : watch settings ((now, .engine (.setDimensions dimensions)) :: later) marks caster =
      (watch settings later (marks.perform caster (.engine (.setDimensions dimensions)))
        (caster.setDimensions dimensions) >>= pure) := rfl
  rw [watched, bind_pure, unmarked]

-- What is seen is compared by what its own session has set, which both sides set alike.
theorem watch_of_core {steps others : List (UInt64 × Action)}
    (beside : SideBySide steps others) (settings : Settings) {left right : Caster} {marks : Marks}
    (same : left.core marks = right.core marks) :
    (watch settings steps marks left).map (List.map Sight.core) =
      (watch settings others marks right).map (List.map Sight.core) := by
  induction beside generalizing left right marks with
  | done => rfl
  | @step action other steps others now twin later ih =>
    simp only [watch, ← perform_marks same twin, twin.resizes]
    apply Fault.map_bind_congr (perform_of_core same twin settings now)
    rintro ⟨answer, next⟩ ⟨reply, last⟩ shown
    obtain ⟨told, moved⟩ := Prod.mk.inj shown
    apply Fault.map_bind_congr (ih moved)
    intro sights seen alike
    have sighted : (⟨answer, next, marks.perform left action⟩ : Sight).core =
        (⟨reply, last, marks.perform left action⟩ : Sight).core := shown
    have listed := congrArg₂ List.cons sighted alike
    exact congrArg Except.ok listed
  | left now dimensions later ih =>
    have resized : (left.setDimensions dimensions).core marks = left.core marks := rfl
    rw [watch_resize]
    exact ih (resized.trans same)
  | right now dimensions later ih =>
    have resized : (right.setDimensions dimensions).core marks = right.core marks := rfl
    rw [watch_resize]
    exact ih (same.trans resized.symm)

theorem watch_ok {settings : Settings} (consistent : settings.laws.Consistent)
    (steps : List (UInt64 × Action)) (marks : Marks) {caster : Caster}
    (follows : caster.Follows settings) :
    ∃ sights, watch settings steps marks caster = .ok sights := by
  induction steps generalizing caster marks with
  | nil => exact ⟨[], rfl⟩
  | cons step later ih =>
    obtain ⟨now, action⟩ := step
    obtain ⟨answer, next, performed⟩ := perform_ok consistent follows now action
    obtain ⟨sights, watched⟩ :=
      ih (marks.perform caster action) (perform_steps follows performed).follows
    exact ⟨_, by simp only [watch, performed, Fault.ok_bind, watched]; rfl⟩

theorem presentation_inert (settings : Settings) (marks : Marks) (left right : Caster)
    (steps others : List (UInt64 × Action)) (same : left.core marks = right.core marks)
    (beside : SideBySide steps others) :
    (watch settings steps marks left).map (List.map Sight.core) =
      (watch settings others marks right).map (List.map Sight.core) ∧
    (settings.laws.Consistent → left.Follows settings →
      ∃ sights, watch settings steps marks left = .ok sights) := by
  constructor
  · exact watch_of_core beside settings same
  · intro consistent follows
    exact watch_ok consistent steps marks follows

theorem presentation_inert_estimate :
    let left := Caster.new {} (.ofSeed 0)
    let right := Caster.note (left.setDimensions ⟨3, 4⟩) 7
    let clauses := "focus: Probability\nanchor: Self\nshift: +15%\n"
    let script := clauses ++ "cost: 30E\nintent: \"a\"\nseal"
    let other := clauses ++ "cost: 1E\nintent: \"b\"\nseal"
    let steps : List (UInt64 × Action) :=
      [(0, .cast script), (5, .tick), (6, .engine (.override .time 1.5))]
    let others : List (UInt64 × Action) := [
      (9, .engine (.setDimensions ⟨1, 2⟩)), (0, .cast other), (5, .tick),
      (6, .engine (.override .time 1.5))]
    (left.core ⟨false, false⟩ = right.core ⟨false, false⟩ ∧ SideBySide steps others ∧
      ({} : Settings).laws.Consistent ∧ left.Follows {}) ∧
    (watch {} steps ⟨false, false⟩ left).map (List.map Sight.core) =
      (watch {} others ⟨false, false⟩ right).map (List.map Sight.core) ∧
    ∃ sights, watch {} steps ⟨false, false⟩ left = .ok sights := by
  intro left right clauses script other steps others
  have same : left.core ⟨false, false⟩ = right.core ⟨false, false⟩ := rfl
  let spell (cost : UInt32) (intent : String) : Spell :=
    ⟨.probability, .ofKind .caster, ⟨.increase, 15⟩, cost, intent, false, true, false, []⟩
  have twin : ScriptTwin script other :=
    .read [spell 30 "a"] [spell 1 "b"] (by decide +kernel) (by decide +kernel) rfl
  have beside : SideBySide steps others :=
    .right 9 ⟨1, 2⟩ (.step 0 (.cast twin) (.step 5 .tick
      (.step 6 (.engine (.override .time 1.5)) .done)))
  have consistent : ({} : Settings).laws.Consistent := ⟨by decide, by decide⟩
  have follows : left.Follows {} := new_follows {} _
  obtain ⟨alike, total⟩ := presentation_inert {} ⟨false, false⟩ left right steps others same beside
  exact ⟨⟨same, beside, consistent, follows⟩, alike, total consistent follows⟩

end Spellcraft.Caster
