import Mathlib.Data.List.Forall2
import Spellcraft.Proofs.Caster.Course
import Spellcraft.Proofs.Engine.Log

set_option autoImplicit false

namespace Spellcraft.Caster

variable {caster next : Caster} {settings : Settings} {now : UInt64}

theorem resume_eq_tick {count : Nat} (follows : caster.Follows settings)
    (ticked : caster.tick now = .ok (count, next)) :
    resume settings caster.engine.ids now caster.session = .ok next := by
  obtain ⟨⟨fired, engine⟩, done, rest⟩ := Fault.bind_eq_ok.1 ticked
  cases rest
  have unlogged : caster.engine.Relogged caster.engine.clearLog := ⟨[], rfl⟩
  obtain ⟨other, done', events, rfl⟩ := unlogged.tick done
  -- The session holds all of the caster but its log, its laws and its limits.
  have rebuilt : Engine.ofParts settings.laws caster.engine.ids caster.session.reality
      caster.session.pending = caster.engine.clearLog := by
    simp [Engine.ofParts, Engine.clearLog, session, follows.laws]
  have ledger : Ledger.ofBalance settings.limits caster.session.balance = caster.ledger := by
    rw [← follows.limits]
    exact Ledger.ofBalance_balance follows.energy
  simp only [resume, tick, rebuilt, ledger, done', ← follows.rates]
  rfl

/-- What actions fire one after another, read off the engine at each of them. What is left of
reality is what the last task that fired left of it, swept unless the tasks alone were run. -/
inductive Fired (settings : Settings) :
    Caster → List (UInt64 × Action) → List Firing → Prop where
  | nil (caster : Caster) : Fired settings caster [] []
  | idle {caster next : Caster} {now : UInt64} {action : Action} {answer : Answer}
      {later : List (UInt64 × Action)} {firings : List Firing} (idle : action.firesDue = false)
      (performed : caster.perform settings now action = .ok (answer, next))
      (rest : Fired settings next later firings) :
      Fired settings caster ((now, action) :: later) firings
  | fires {caster next : Caster} {now : UInt64} {action : Action} {answer : Answer}
      {later : List (UInt64 × Action)} {first others : List Firing} {middle : Engine}
      (due : action.firesDue = true)
      (performed : caster.perform settings now action = .ok (answer, next))
      (fires : (caster.engine.forward now).Fires first middle)
      (left : next.engine.reality =
        if action = .engine .runDue then middle.reality else (middle.sweep now).2.reality)
      (rest : Fired settings next later others) :
      Fired settings caster ((now, action) :: later) (first ++ others)

theorem tick_fires {count : Nat} (ticked : caster.tick now = .ok (count, next)) :
    ∃ firings middle, (caster.engine.forward now).Fires firings middle ∧
      firings.map Firing.task = caster.engine.timeline.due now ∧
      next.engine.reality = (middle.sweep now).2.reality := by
  obtain ⟨engine, done, rfl⟩ := tick_eq_ok.1 ticked
  obtain ⟨firings, middle, fires, tasks, swept⟩ := Engine.tick_fires done
  exact ⟨firings, middle, fires, tasks, swept⟩

theorem perform_fires {action : Action} {answer : Answer} (consistent : settings.laws.Consistent)
    (follows : caster.Follows settings) (due : action.firesDue = true)
    (performed : caster.perform settings now action = .ok (answer, next)) :
    ∃ firings middle, (caster.engine.forward now).Fires firings middle ∧
      firings.map Firing.task = caster.engine.timeline.due now ∧
      next.engine.reality =
        if action = .engine .runDue then middle.reality else (middle.sweep now).2.reality := by
  cases action with
  | tick =>
    obtain ⟨⟨count, last⟩, ticked, done⟩ := Fault.bind_eq_ok.1 performed
    cases done
    exact tick_fires ticked
  | resume =>
    obtain ⟨last, resumed, done⟩ := Fault.bind_eq_ok.1 performed
    cases done
    obtain ⟨count, after, ticked⟩ : ∃ count after, caster.tick now = .ok (count, after) :=
      tick_ok (by rwa [follows.laws]) now
    rw [resume_eq_tick follows ticked] at resumed
    cases resumed
    exact tick_fires ticked
  | engine operation =>
    obtain ⟨⟨told, engine⟩, done, rest⟩ := Fault.bind_eq_ok.1 performed
    cases rest
    cases operation with
    | runDue =>
      obtain ⟨⟨count, last⟩, run, same⟩ := Fault.bind_eq_ok.1 done
      cases same
      obtain ⟨firings, fires, tasks, -⟩ := Engine.runDue_fires run
      exact ⟨firings, engine, fires, tasks, rfl⟩
    | tick =>
      obtain ⟨⟨count, last⟩, ticked, same⟩ := Fault.bind_eq_ok.1 done
      cases same
      exact Engine.tick_fires ticked
    | _ => cases due
  | _ => cases due

-- A tick in the place of a save that is taken up at once.
def Action.unsaved : Action → Action
  | .resume => .tick
  | .compile script => .compile script
  | .cast script => .cast script
  | .castCompiled compiled => .castCompiled compiled
  | .regenerate => .regenerate
  | .tick => .tick
  | .engine operation => .engine operation

def Answer.Agrees (left right : Answer) : Prop :=
  left = .resumed ∨ left = right

theorem perform_unsaved {action : Action} {answer : Answer} (consistent : settings.laws.Consistent)
    (follows : caster.Follows settings)
    (performed : caster.perform settings now action = .ok (answer, next)) :
    ∃ other, caster.perform settings now action.unsaved = .ok (other, next) ∧
      answer.Agrees other := by
  cases action with
  | resume =>
    obtain ⟨last, resumed, done⟩ := Fault.bind_eq_ok.1 performed
    cases done
    obtain ⟨count, after, ticked⟩ : ∃ count after, caster.tick now = .ok (count, after) :=
      tick_ok (by rwa [follows.laws]) now
    rw [resume_eq_tick follows ticked] at resumed
    cases resumed
    exact ⟨.count count, by rw [Action.unsaved, perform, ticked]; rfl, .inl rfl⟩
  | compile | cast | castCompiled | regenerate | tick | engine =>
    exact ⟨answer, performed, .inr rfl⟩

namespace Course

structure Matches (left right : Course) : Prop where
  caster : left.caster = right.caster
  answers : List.Forall₂ Answer.Agrees left.answers right.answers
  fired : left.fired = right.fired
  scheduled : left.scheduled = right.scheduled

theorem unsaved_firesDue (action : Action) : action.unsaved.firesDue = action.firesDue := by
  cases action <;> rfl

theorem unsaved_scheduled (now : UInt64) (caster : Caster) (action : Action) :
    action.unsaved.scheduled now caster = action.scheduled now caster := by
  cases action <;> rfl

theorem Matches.step {left right next : Course} {action : Action}
    (consistent : settings.laws.Consistent) (follows : left.caster.Follows settings)
    (matching : left.Matches right) (stepped : left.step settings now action = .ok next) :
    ∃ other, right.step settings now action.unsaved = .ok other ∧ next.Matches other := by
  obtain ⟨⟨answer, caster⟩, performed, done⟩ := Fault.bind_eq_ok.1 stepped
  obtain ⟨answer', unsaved, agrees⟩ := perform_unsaved consistent follows performed
  cases done
  rw [matching.caster] at unsaved
  refine ⟨_, step_ok unsaved, rfl, ?_, ?_, ?_⟩
  · exact List.rel_append matching.answers (.cons agrees .nil)
  · simp only [unsaved_firesDue, matching.fired, matching.caster]
  · simp only [unsaved_scheduled, matching.scheduled, matching.caster]

theorem run_unsaved {course last : Course} {actions : List (UInt64 × Action)}
    (consistent : settings.laws.Consistent) (follows : course.caster.Follows settings)
    (ran : course.run settings actions = .ok last) :
    ∃ other, course.run settings (actions.map (Prod.map id Action.unsaved)) = .ok other ∧
      last.Matches other := by
  let related (left right : Course) : Prop := left.Matches right ∧ left.caster.Follows settings
  have lift (entry : UInt64 × Action) (left right next : Course) (both : related left right)
      (stepped : left.step settings entry.1 entry.2 = .ok next) :
      ∃ other, right.step settings entry.1 entry.2.unsaved = .ok other ∧ related next other := by
    obtain ⟨other, stepped', matching⟩ := both.1.step consistent both.2 stepped
    obtain ⟨answer, performed, -, -⟩ := step_eq_ok stepped
    exact ⟨other, stepped', matching, (perform_steps both.2 performed).follows⟩
  have answers : List.Forall₂ Answer.Agrees course.answers course.answers :=
    List.forall₂_same.2 fun _ _ => .inr rfl
  have initial : related course course := ⟨⟨rfl, answers, rfl, rfl⟩, follows⟩
  obtain ⟨other, followed, matching, -⟩ := Fault.foldlM_lift lift initial ran
  refine ⟨other, ?_, matching⟩
  rw [run, List.foldlM_map]
  exact followed

-- The tasks that a course counts as fired are those that its actions fire.
theorem run_firings {course last : Course} {actions : List (UInt64 × Action)}
    (consistent : settings.laws.Consistent) (follows : course.caster.Follows settings)
    (ran : course.run settings actions = .ok last) :
    ∃ firings, Fired settings course.caster actions firings ∧
      last.fired.map PendingTask.task =
        course.fired.map PendingTask.task ++ firings.map Firing.task := by
  induction actions generalizing course with
  | nil =>
    cases ran
    exact ⟨[], .nil _, by simp⟩
  | cons entry later ih =>
    obtain ⟨now, action⟩ := entry
    obtain ⟨next, stepped, continued⟩ := Fault.bind_eq_ok.1 ran
    obtain ⟨answer, performed, grown, -⟩ := step_eq_ok stepped
    obtain ⟨others, fired, total⟩ := ih (perform_steps follows performed).follows continued
    cases due : action.firesDue with
    | false =>
      refine ⟨others, .idle due performed fired, ?_⟩
      rw [total, grown, due]
      simp [Engine.fired]
    | true =>
      obtain ⟨first, middle, fires, tasks, left⟩ := perform_fires consistent follows due performed
      refine ⟨first ++ others, .fires due performed fires left fired, ?_⟩
      rw [total, grown, due, List.map_append, List.map_append, tasks, Timeline.due_eq_elapsed,
        List.append_assoc]
      rfl

end Course

theorem resume_transparent (settings : Settings) (consistent : settings.laws.Consistent)
    (ids : IdSupply) (earlier : List (UInt64 × Action)) (course : Course)
    (reached : (Course.start (.new settings ids)).run settings earlier = .ok course)
    (now : UInt64) (later : List (UInt64 × Action)) :
    ∃ resumed count ticked after unsaved,
      resume settings course.caster.engine.ids now course.caster.session = .ok resumed ∧
      course.caster.tick now = .ok (count, ticked) ∧
      resumed.engine.reality = ticked.engine.reality ∧
      resumed.engine.timeline.pending = ticked.engine.timeline.pending ∧
      resumed.ledger = ticked.ledger ∧
      resumed.engine.events = [] ∧ ticked.engine.events = [] ∧
      (Course.start resumed).run settings later = .ok after ∧
      (Course.start ticked).run settings later = .ok after ∧
      (Course.start ticked).run settings (later.map (Prod.map id Action.unsaved)) = .ok unsaved ∧
      after.Matches unsaved ∧
      let fired := course.caster.engine.timeline.elapsed now ++ after.fired
      (fired ++ after.pending).Perm (course.pending ++ after.scheduled) ∧
      course.pending.Sublist (fired ++ after.pending) ∧
      (∀ entry ∈ (now, .resume) :: later, entry.2.firesDue = true →
        (course.pending.filter fun task => decide (task.due ≤ entry.1)).Sublist fired) ∧
      ∃ firings, Fired settings course.caster ((now, .resume) :: later) firings ∧
        firings.map Firing.task = fired.map PendingTask.task := by
  have follows := ((Course.start_ordered (new_follows settings ids)).run reached).follows
  obtain ⟨count, ticked, done⟩ : ∃ count ticked, course.caster.tick now = .ok (count, ticked) :=
    tick_ok (by rwa [follows.laws]) now
  have resumed := resume_eq_tick follows done
  have steps := resume_steps resumed
  obtain ⟨after, ran⟩ := (Course.start ticked).run_ok consistent steps.follows later
  obtain ⟨unsaved, ran', matching⟩ := Course.run_unsaved consistent steps.follows ran
  have ordered := (Course.start_ordered steps.follows).run ran
  have carries := steps.carries.trans ordered.carries
  have silent : ticked.engine.events = [] := by
    obtain ⟨⟨fired, engine⟩, -, rest⟩ := Fault.bind_eq_ok.1 done
    cases rest
    rfl
  refine ⟨ticked, count, ticked, after, unsaved, resumed, done, rfl, rfl, rfl, silent, silent, ran,
    ran, ran', matching, carries.perm, carries.order, ?_, ?_⟩
  · intro entry member fires
    rcases List.mem_cons.1 member with rfl | past
    · rw [Course.pending, ← Timeline.elapsed_eq_filter]
      exact List.sublist_append_left ..
    -- What was due by a later reading was due at the save or is due to the caster that went on.
    · have due := steps.carries.order.filter fun task => decide (task.due ≤ entry.1)
      rw [List.filter_append] at due
      have fired := (Course.start_ordered steps.follows).run_fires ran past fires
      exact due.trans (List.filter_sublist.append fired)
  · have performed : course.caster.perform settings now .resume = .ok (.resumed, ticked) := by
      rw [perform, resumed]
      rfl
    obtain ⟨first, middle, fires, tasks, left⟩ := perform_fires consistent follows rfl performed
    obtain ⟨others, fired, total⟩ := Course.run_firings consistent steps.follows ran
    refine ⟨first ++ others, .fires rfl performed fires left fired, ?_⟩
    rw [List.map_append, List.map_append, tasks, total, Timeline.due_eq_elapsed]
    rfl

theorem resume_transparent_midway :
    let settings : Settings := {}
    let rooted : Spell :=
      ⟨.entropy, .ofKind .zone, ⟨.increase, 5⟩, 0, "", true, true, true, [.kernelSpace]⟩
    let once : Action := .castCompiled ⟨[rooted], 5⟩
    let later : List (UInt64 × Action) := [(20, once), (90, .resume), (20015, .tick)]
    ∃ course,
      (settings.laws.Consistent ∧
        (Course.start (.new settings (.ofSeed 0))).run settings [(10, once), (15, once)] =
          .ok course) ∧
      ∃ resumed count ticked after unsaved,
        resume settings course.caster.engine.ids 18 course.caster.session = .ok resumed ∧
        course.caster.tick 18 = .ok (count, ticked) ∧
        resumed.engine.reality = ticked.engine.reality ∧
        resumed.engine.timeline.pending = ticked.engine.timeline.pending ∧
        resumed.ledger = ticked.ledger ∧
        resumed.engine.events = [] ∧ ticked.engine.events = [] ∧
        (Course.start resumed).run settings later = .ok after ∧
        (Course.start ticked).run settings later = .ok after ∧
        (Course.start ticked).run settings (later.map (Prod.map id Action.unsaved)) = .ok unsaved ∧
        after.Matches unsaved ∧
        let fired := course.caster.engine.timeline.elapsed 18 ++ after.fired
        (fired ++ after.pending).Perm (course.pending ++ after.scheduled) ∧
        course.pending.Sublist (fired ++ after.pending) ∧
        (∀ entry ∈ (18, .resume) :: later, entry.2.firesDue = true →
          (course.pending.filter fun task => decide (task.due ≤ entry.1)).Sublist fired) ∧
        ∃ firings, Fired settings course.caster ((18, .resume) :: later) firings ∧
          firings.map Firing.task = fired.map PendingTask.task ∧
          fired.map PendingTask.due = [20010, 20015] := by
  intro settings rooted once later
  have consistent : settings.laws.Consistent := ⟨by decide, by decide⟩
  have facts : ((Course.start (.new settings (.ofSeed 0))).run settings [(10, once), (15, once)] >>=
      fun course => course.caster.tick 18 >>= fun ticked =>
        ((Course.start ticked.2).run settings later).map fun after =>
          (course.caster.engine.timeline.elapsed 18 ++ after.fired).map PendingTask.due) =
      .ok [20010, 20015] := by decide +kernel
  obtain ⟨course, reached, rest⟩ := Fault.bind_eq_ok.1 facts
  obtain ⟨resumed, count, ticked, after, unsaved, taken, done, reality, pending, ledger, log, log',
    ran, ran', swapped, matching, total, order, due, firings, fired, tasks⟩ :=
    resume_transparent settings consistent (.ofSeed 0) [(10, once), (15, once)] course reached
      18 later
  rw [done, Fault.ok_bind, ran'] at rest
  exact ⟨course, ⟨consistent, reached⟩, resumed, count, ticked, after, unsaved, taken, done, reality,
    pending, ledger, log, log', ran, ran', swapped, matching, total, order, due, firings, fired,
    tasks, Except.ok.inj rest⟩

end Spellcraft.Caster
