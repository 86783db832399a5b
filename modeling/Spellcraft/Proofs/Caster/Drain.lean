import Spellcraft.Proofs.Caster.Course

set_option autoImplicit false

namespace Spellcraft.Caster

def Action.isDirect : Action → Bool
  | .engine _ => true
  | .compile _ | .cast _ | .castCompiled _ | .regenerate | .tick | .resume => false

variable {caster noted next : Caster} {settings : Settings} {now : UInt64}

theorem castCompiled_events {compiled : Compiled} {report : CastReport}
    (done : caster.castCompiled now compiled = .ok (report, next)) :
    report.cost = compiled.cost ∧ next.engine.events =
      if compiled.cost ≤ caster.ledger.energy then [] else caster.engine.events := by
  by_cases affordable : compiled.cost ≤ caster.ledger.energy
  · rw [castCompiled, Ledger.affords, if_pos (decide_eq_true affordable)] at done
    obtain ⟨⟨verdict, engine⟩, cast, rest⟩ := Fault.bind_eq_ok.1 done
    cases rest
    rw [if_pos affordable]
    exact ⟨rfl, rfl⟩
  · rw [castCompiled, Ledger.affords, if_neg (by simpa using affordable)] at done
    cases done
    rw [if_neg affordable]
    exact ⟨rfl, rfl⟩

theorem cast_events {script : String} {result : Except ScriptError CastReport}
    (done : caster.cast now script = .ok (result, next)) :
    (∃ error, result = .error error ∧ next = caster) ∨
      ∃ report, result = .ok report ∧ next.engine.events =
        if report.cost ≤ caster.ledger.energy then [] else caster.engine.events := by
  rw [Caster.cast] at done
  cases read : caster.compile script with
  | error error =>
    rw [read] at done
    cases done
    exact .inl ⟨error, rfl, rfl⟩
  | ok pair =>
    obtain ⟨compiled, noted⟩ := pair
    rw [read] at done
    obtain ⟨⟨report, last⟩, cast, rest⟩ := Fault.bind_eq_ok.1 done
    cases rest
    obtain ⟨cost, events⟩ := castCompiled_events cast
    rw [compile_eq_ok read, ← cost] at events
    exact .inr ⟨report, rfl, events⟩

theorem tick_events {count : Nat} (ticked : caster.tick now = .ok (count, next)) :
    next.engine.events = [] := by
  obtain ⟨engine, -, rfl⟩ := tick_eq_ok.1 ticked
  rfl

theorem perform_events {action : Action} {answer : Answer} (indirect : action.isDirect = false)
    (performed : caster.perform settings now action = .ok (answer, next)) :
    next.engine.events = [] ∨ next.engine.events = caster.engine.events := by
  cases action with
  | compile script =>
    cases read : caster.compile script with
    | error error =>
      rw [perform, read] at performed
      cases performed
      exact .inr rfl
    | ok pair =>
      rw [perform, read] at performed
      cases performed
      rw [compile_eq_ok read]
      exact .inr rfl
  | cast script =>
    obtain ⟨⟨result, last⟩, cast, done⟩ := Fault.bind_eq_ok.1 performed
    cases done
    rcases cast_events cast with ⟨error, -, rfl⟩ | ⟨report, -, events⟩
    · exact .inr rfl
    · by_cases affordable : report.cost ≤ caster.ledger.energy
      · exact .inl (events.trans (if_pos affordable))
      · exact .inr (events.trans (if_neg affordable))
  | castCompiled compiled =>
    obtain ⟨⟨report, last⟩, cast, done⟩ := Fault.bind_eq_ok.1 performed
    cases done
    have events := (castCompiled_events cast).2
    by_cases affordable : compiled.cost ≤ caster.ledger.energy
    · exact .inl (events.trans (if_pos affordable))
    · exact .inr (events.trans (if_neg affordable))
  | regenerate =>
    cases performed
    exact .inr rfl
  | tick =>
    obtain ⟨⟨count, last⟩, ticked, done⟩ := Fault.bind_eq_ok.1 performed
    cases done
    exact .inl (tick_events ticked)
  | engine operation => cases indirect
  | resume =>
    obtain ⟨last, resumed, done⟩ := Fault.bind_eq_ok.1 performed
    cases done
    obtain ⟨⟨count, settled⟩, ticked, rest⟩ := Fault.bind_eq_ok.1 resumed
    cases rest
    exact .inl (tick_events ticked)

theorem Course.run_events {course last : Course} {actions : List (UInt64 × Action)}
    (indirect : ∀ entry ∈ actions, entry.2.isDirect = false)
    (ran : course.run settings actions = .ok last) :
    last.caster.engine.events = [] ∨
      last.caster.engine.events = course.caster.engine.events := by
  have kept (entry : UInt64 × Action) (member : entry ∈ actions) (state next : Course)
      (held : state.caster.engine.events = [] ∨
        state.caster.engine.events = course.caster.engine.events)
      (stepped : state.step settings entry.1 entry.2 = .ok next) :
      next.caster.engine.events = [] ∨
        next.caster.engine.events = course.caster.engine.events := by
    obtain ⟨answer, performed, -, -⟩ := step_eq_ok stepped
    rcases perform_events (indirect entry member) performed with emptied | same
    · exact .inl emptied
    · rwa [same]
  exact Fault.foldlM_keeps kept ran (.inr rfl)

theorem log_drained (caster : Caster) (settings : Settings) :
    (∀ now count next, caster.tick now = .ok (count, next) → next.engine.events = []) ∧
    (∀ now compiled report next, caster.castCompiled now compiled = .ok (report, next) →
      next.engine.events =
        if compiled.cost ≤ caster.ledger.energy then [] else caster.engine.events) ∧
    (∀ now script report next, caster.cast now script = .ok (.ok report, next) →
      next.engine.events =
        if report.cost ≤ caster.ledger.energy then [] else caster.engine.events) ∧
    (∀ actions last, (∀ entry ∈ actions, entry.2.isDirect = false) →
      (Course.start caster).run settings actions = .ok last →
      last.caster.engine.events = [] ∨
        last.caster.engine.events = caster.engine.events) ∧
    (settings.laws.Consistent → caster.Follows settings → ∀ now action, ∃ answer next,
      caster.perform settings now action = .ok (answer, next)) := by
  refine ⟨fun now count next ticked => tick_events ticked, ?_, ?_, ?_, ?_⟩
  · intro now compiled report next done
    exact (castCompiled_events done).2
  · intro now script report next done
    rcases cast_events done with ⟨error, told, -⟩ | ⟨other, told, events⟩
    · cases told
    · cases told
      exact events
  · intro actions last indirect ran
    exact Course.run_events indirect ran
  · intro consistent follows
    exact perform_ok consistent follows

theorem log_drained_override :
    let caster := ((Caster.new {} (.ofSeed 0)).override .time 1.5).2
    let rooted : Spell :=
      ⟨.entropy, .ofKind .zone, ⟨.increase, 5⟩, 0, "", true, true, true, [.kernelSpace]⟩
    let actions : List (UInt64 × Action) :=
      [(5, .castCompiled ⟨[rooted], 101⟩), (6, .regenerate), (7, .castCompiled ⟨[rooted], 100⟩)]
    caster.engine.events = [.parameterOverridden .time 1.5] ∧
    ∃ count ticked report cast last,
      (caster.tick 5 = .ok (count, ticked) ∧
        caster.castCompiled 5 ⟨[rooted], 101⟩ = .ok (report, cast) ∧
        (∀ entry ∈ actions, entry.2.isDirect = false) ∧
        (Course.start caster).run {} actions = .ok last) ∧
      ticked.engine.events = [] ∧
      cast.engine.events = [.parameterOverridden .time 1.5] ∧
      (last.caster.engine.events = [] ∨
        last.caster.engine.events = [.parameterOverridden .time 1.5]) := by
  intro caster rooted actions
  obtain ⟨ticks, casts, -, runs, -⟩ := log_drained caster {}
  have indirect : ∀ entry ∈ actions, entry.2.isDirect = false := by decide
  refine ⟨rfl, _, _, _, _, _, ⟨rfl, rfl, indirect, rfl⟩, ?_, ?_, ?_⟩
  · exact ticks 5 _ _ rfl
  · exact casts 5 ⟨[rooted], 101⟩ _ _ rfl
  · exact runs actions _ indirect rfl

-- What was set stays in the log when the next cast is not afforded.
theorem log_kept_unaffordable :
    let script := "focus: Time\nanchor: Self\nshift: +100%\ncost: 1E\nintent: \"x\"\nseal"
    let actions : List (UInt64 × Action) := [(0, .engine (.override .time 1.5))]
    ∃ course report next,
      (Course.start (.new {} (.ofSeed 0))).run {} actions = .ok course ∧
      course.caster.cast 0 script = .ok (.ok report, next) ∧
      report = ⟨.refused (.unaffordable 120 100), 120, 100⟩ ∧
      next.engine.events = [.parameterOverridden .time 1.5] ∧ next.engine.events ≠ [] := by
  intro script actions
  let caster := ((Caster.new {} (.ofSeed 0)).override .time 1.5).2
  have told : (caster.cast 0 script).map (fun told => (told.1, told.2.engine.events)) =
      .ok (.ok ⟨.refused (.unaffordable 120 100), 120, 100⟩, [.parameterOverridden .time 1.5]) := by
    decide +kernel
  cases cast : caster.cast 0 script with
  | error fault =>
    rw [cast] at told
    cases told
  | ok pair =>
    obtain ⟨result, next⟩ := pair
    rw [cast] at told
    obtain ⟨rfl, events⟩ := Prod.mk.inj (Except.ok.inj told)
    have left : next.engine.events = [.parameterOverridden .time 1.5] := events
    exact ⟨_, _, next, rfl, cast, rfl, left, by simp [left]⟩

end Spellcraft.Caster
