import Spellcraft.Proofs.Caster.Tick
import Spellcraft.Proofs.Engine.Tasks
import Spellcraft.Proofs.Ledger
import Spellcraft.Wire.Session

set_option autoImplicit false

namespace Spellcraft.Caster

inductive Action where
  | compile (script : String)
  | cast (script : String)
  | castCompiled (compiled : Compiled)
  | regenerate
  | tick
  | engine (operation : Engine.Operation)
  | resume
deriving DecidableEq

inductive Answer where
  | compiled (result : Except ScriptError Compiled)
  | report (result : Except ScriptError CastReport)
  | energy (energy : UInt32)
  | count (count : Nat)
  | engine (answer : Engine.Answer)
  | resumed

def perform (caster : Caster) (settings : Settings) (now : UInt64) :
    Action → Except Fault (Answer × Caster)
  | .compile script =>
    match caster.compile script with
    | .error error => .ok (.compiled (.error error), caster)
    | .ok (compiled, noted) => .ok (.compiled (.ok compiled), noted)
  | .cast script => do
    let (result, next) ← caster.cast now script
    return (.report result, next)
  | .castCompiled compiled => do
    let (report, next) ← caster.castCompiled now compiled
    return (.report (.ok report), next)
  | .regenerate => .ok (.energy caster.regenerate.ledger.energy, caster.regenerate)
  | .tick => do
    let (count, next) ← caster.tick now
    return (.count count, next)
  | .engine operation => do
    let (answer, engine) ← caster.engine.perform now operation
    return (.engine answer, { caster with engine })
  | .resume => do
    let next ← Caster.resume settings caster.engine.ids now caster.session
    return (.resumed, next)

def Action.firesDue : Action → Bool
  | .tick | .resume => true
  | .engine operation => operation.firesDue
  | .compile _ | .cast _ | .castCompiled _ | .regenerate => false

def scheduledCompiled (caster : Caster) (now : UInt64) (compiled : Compiled) : List PendingTask :=
  if caster.ledger.affords compiled.cost then
    Engine.scheduled now compiled.spells caster.engine
  else []

def Action.scheduled (now : UInt64) (caster : Caster) : Action → List PendingTask
  | .cast script =>
    match caster.compile script with
    | .ok (compiled, noted) => noted.scheduledCompiled now compiled
    | .error _ => []
  | .castCompiled compiled => caster.scheduledCompiled now compiled
  | .engine operation => operation.scheduled now caster.engine
  | .compile _ | .regenerate | .tick | .resume => []

structure Follows (caster : Caster) (settings : Settings) : Prop where
  laws : caster.engine.laws = settings.laws
  rates : caster.rates = settings.rates
  limits : caster.ledger.limits = settings.limits
  energy : caster.ledger.energy ≤ caster.ledger.limits.capacity

structure Steps (caster : Caster) (settings : Settings) (fired scheduled : List PendingTask)
    (next : Caster) : Prop where
  follows : next.Follows settings
  carries : caster.engine.timeline.Carries fired scheduled next.engine.timeline

variable {caster noted next : Caster} {settings : Settings} {now : UInt64}

theorem new_follows (settings : Settings) (ids : IdSupply) :
    (Caster.new settings ids).Follows settings :=
  ⟨rfl, rfl, rfl, Ledger.ofBalance_energy_le _ _⟩

theorem compile_error {script : String} {error : ScriptError}
    (unread : Spell.ofScript script = .error error) : caster.compile script = .error error := by
  rw [compile, unread]
  rfl

theorem compile_eq_ok {script : String} {compiled : Compiled}
    (done : caster.compile script = .ok (compiled, noted)) :
    noted = { caster with ledger := caster.ledger.noteDraft compiled.cost } := by
  rw [compile] at done
  cases read : Spell.ofScript script with
  | error error => simp [read, bind, Except.bind] at done
  | ok spells =>
    rw [read] at done
    cases done
    rfl

theorem compile_steps {script : String} {compiled : Compiled} (follows : caster.Follows settings)
    (done : caster.compile script = .ok (compiled, noted)) : caster.Steps settings [] [] noted := by
  rw [compile_eq_ok done]
  exact ⟨⟨follows.laws, follows.rates, follows.limits, follows.energy⟩, .idle _⟩

theorem castCompiled_steps {compiled : Compiled} {report : CastReport}
    (follows : caster.Follows settings)
    (done : caster.castCompiled now compiled = .ok (report, next)) :
    caster.Steps settings [] (caster.scheduledCompiled now compiled) next := by
  by_cases affordable : caster.ledger.affords compiled.cost = true
  · simp only [castCompiled, affordable, if_true] at done
    obtain ⟨⟨verdict, engine⟩, cast, rest⟩ := Fault.bind_eq_ok.1 done
    cases rest
    constructor
    · refine ⟨(Engine.cast_onward cast).laws.trans follows.laws, follows.rates, ?_, ?_⟩
      · cases verdict.success <;> exact follows.limits
      · cases verdict.success
        · exact follows.energy
        · exact UInt32.le_trans (Ledger.spend_energy_le _ _) follows.energy
    · rw [scheduledCompiled, if_pos affordable]
      have carries := Engine.cast_carries cast
      exact carries
  · simp only [castCompiled, affordable] at done
    cases done
    rw [scheduledCompiled, if_neg affordable]
    exact ⟨follows, .idle _⟩

theorem cast_steps {script : String} {result : Except ScriptError CastReport}
    (follows : caster.Follows settings) (done : caster.cast now script = .ok (result, next)) :
    caster.Steps settings [] ((Action.cast script).scheduled now caster) next := by
  rw [Caster.cast] at done
  cases read : caster.compile script with
  | error error =>
    simp only [read] at done
    cases done
    simp only [Action.scheduled, read]
    exact ⟨follows, .idle _⟩
  | ok pair =>
    obtain ⟨compiled, noted⟩ := pair
    simp only [read] at done
    obtain ⟨⟨report, last⟩, cast, rest⟩ := Fault.bind_eq_ok.1 done
    cases rest
    have first := compile_steps follows read
    have second := castCompiled_steps first.follows cast
    simp only [Action.scheduled, read]
    exact ⟨second.follows, first.carries.trans second.carries⟩

theorem tick_steps {count : Nat} (follows : caster.Follows settings)
    (done : caster.tick now = .ok (count, next)) :
    caster.Steps settings (caster.engine.timeline.elapsed now) [] next := by
  obtain ⟨engine, ticked, rfl⟩ := tick_eq_ok.1 done
  have kept := Engine.tick_kept ticked
  refine ⟨⟨kept.laws.trans follows.laws, follows.rates, follows.limits, follows.energy⟩, ?_⟩
  have timeline : engine.clearLog.timeline = caster.engine.timeline.after now := kept.timeline
  rw [timeline]
  exact .fire _ now

theorem resume_steps (done : resume settings caster.engine.ids now caster.session = .ok next) :
    caster.Steps settings (caster.engine.timeline.elapsed now) [] next := by
  obtain ⟨⟨count, settled⟩, ticked, rest⟩ := Fault.bind_eq_ok.1 done
  cases rest
  have steps := tick_steps ⟨rfl, rfl, rfl, Ledger.ofBalance_energy_le _ _⟩ ticked
  have rebuilt : Timeline.ofList caster.session.pending = caster.engine.timeline :=
    Timeline.ofList_pending _
  simp only [Engine.ofParts, rebuilt] at steps
  exact ⟨steps.follows, steps.carries⟩

theorem perform_steps {action : Action} {answer : Answer} (follows : caster.Follows settings)
    (performed : caster.perform settings now action = .ok (answer, next)) :
    caster.Steps settings (caster.engine.fired now action.firesDue)
      (action.scheduled now caster) next := by
  cases action with
  | compile script =>
    cases read : caster.compile script with
    | error error =>
      simp only [perform, read] at performed
      cases performed
      exact ⟨follows, .idle _⟩
    | ok pair =>
      obtain ⟨compiled, noted⟩ := pair
      simp only [perform, read] at performed
      cases performed
      exact compile_steps follows read
  | cast script =>
    obtain ⟨⟨result, last⟩, cast, done⟩ := Fault.bind_eq_ok.1 performed
    cases done
    exact cast_steps follows cast
  | castCompiled compiled =>
    obtain ⟨⟨report, last⟩, cast, done⟩ := Fault.bind_eq_ok.1 performed
    cases done
    exact castCompiled_steps follows cast
  | regenerate =>
    cases performed
    have within : caster.regenerate.ledger.energy ≤ caster.ledger.limits.capacity :=
      Ledger.regenerate_energy_le _
    exact ⟨⟨follows.laws, follows.rates, follows.limits, within⟩, .idle _⟩
  | tick =>
    obtain ⟨⟨count, last⟩, ticked, done⟩ := Fault.bind_eq_ok.1 performed
    cases done
    exact tick_steps follows ticked
  | engine operation =>
    obtain ⟨⟨engine_answer, engine⟩, done, rest⟩ := Fault.bind_eq_ok.1 performed
    cases rest
    have laws := (Engine.perform_onward done).laws.trans follows.laws
    exact ⟨⟨laws, follows.rates, follows.limits, follows.energy⟩, Engine.perform_carries done⟩
  | resume =>
    obtain ⟨last, resumed, done⟩ := Fault.bind_eq_ok.1 performed
    cases done
    exact resume_steps resumed

theorem castCompiled_ok (consistent : caster.engine.laws.Consistent) (now : UInt64)
    (compiled : Compiled) :
    ∃ report next, caster.castCompiled now compiled = .ok (report, next) := by
  by_cases affordable : caster.ledger.affords compiled.cost = true
  · obtain ⟨verdict, engine, cast⟩ := Engine.cast_ok consistent.entropyRange now compiled.spells
    simp only [castCompiled, affordable, if_true, cast, Fault.ok_bind]
    exact ⟨_, _, rfl⟩
  · simp only [castCompiled, affordable]
    exact ⟨_, _, rfl⟩

theorem tick_ok (consistent : caster.engine.laws.Consistent) (now : UInt64) :
    ∃ count next, caster.tick now = .ok (count, next) :=
  tick_total consistent.timeRange now

theorem resume_ok (consistent : settings.laws.Consistent) (ids : IdSupply) (now : UInt64)
    (session : Session) : ∃ next, resume settings ids now session = .ok next := by
  let rebuilt : Caster := {
    engine := .ofParts settings.laws ids session.reality session.pending
    ledger := .ofBalance settings.limits session.balance
    rates := settings.rates }
  obtain ⟨count, next, ticked⟩ : ∃ count next, rebuilt.tick now = .ok (count, next) :=
    tick_ok consistent now
  exact ⟨next, by rw [resume, ticked]; rfl⟩

theorem perform_ok (consistent : settings.laws.Consistent) (follows : caster.Follows settings)
    (now : UInt64) (action : Action) :
    ∃ answer next, caster.perform settings now action = .ok (answer, next) := by
  have able : caster.engine.laws.Consistent := by rwa [follows.laws]
  cases action with
  | compile script =>
    cases read : caster.compile script with
    | error error => exact ⟨_, _, by simp only [perform, read]; rfl⟩
    | ok pair => exact ⟨_, _, by simp only [perform, read]; rfl⟩
  | cast script =>
    cases read : caster.compile script with
    | error error => exact ⟨_, _, by simp only [perform, Caster.cast, read]; rfl⟩
    | ok pair =>
      obtain ⟨compiled, noted⟩ := pair
      have laws := (compile_steps follows read).follows.laws
      obtain ⟨report, next, cast⟩ := castCompiled_ok (by rwa [laws]) now compiled
      exact ⟨_, _, by simp only [perform, Caster.cast, read, cast]; rfl⟩
  | castCompiled compiled =>
    obtain ⟨report, next, cast⟩ := castCompiled_ok able now compiled
    exact ⟨_, _, by rw [perform, cast]; rfl⟩
  | regenerate => exact ⟨_, _, rfl⟩
  | tick =>
    obtain ⟨count, next, ticked⟩ := tick_ok able now
    exact ⟨_, _, by rw [perform, ticked]; rfl⟩
  | engine operation =>
    obtain ⟨answer, engine, done⟩ := Engine.perform_ok able now operation
    exact ⟨_, _, by rw [perform, done]; rfl⟩
  | resume =>
    obtain ⟨next, resumed⟩ := resume_ok consistent caster.engine.ids now caster.session
    exact ⟨_, _, by rw [perform, resumed]; rfl⟩

end Spellcraft.Caster
