import Spellcraft.Proofs.Caster.Action

set_option autoImplicit false

namespace Spellcraft.Caster

structure Course where
  caster : Caster
  answers : List Answer
  fired : List PendingTask
  scheduled : List PendingTask

namespace Course

def start (caster : Caster) : Course :=
  ⟨caster, [], [], []⟩

def step (course : Course) (settings : Settings) (now : UInt64) (action : Action) :
    Except Fault Course := do
  let (answer, caster) ← course.caster.perform settings now action
  return {
    caster := caster
    answers := course.answers ++ [answer]
    fired := course.fired ++ course.caster.engine.fired now action.firesDue
    scheduled := course.scheduled ++ action.scheduled now course.caster }

def run (course : Course) (settings : Settings) (actions : List (UInt64 × Action)) :
    Except Fault Course :=
  actions.foldlM (fun course (now, action) => course.step settings now action) course

def pending (course : Course) : List PendingTask :=
  course.caster.engine.timeline.pending

variable {course next last : Course} {settings : Settings} {actions : List (UInt64 × Action)}

theorem step_ok {now : UInt64} {action : Action} {answer : Answer} {caster : Caster}
    (performed : course.caster.perform settings now action = .ok (answer, caster)) :
    course.step settings now action = .ok {
      caster := caster
      answers := course.answers ++ [answer]
      fired := course.fired ++ course.caster.engine.fired now action.firesDue
      scheduled := course.scheduled ++ action.scheduled now course.caster } := by
  rw [step, performed]
  rfl

theorem step_eq_ok {now : UInt64} {action : Action}
    (stepped : course.step settings now action = .ok next) :
    ∃ answer, course.caster.perform settings now action = .ok (answer, next.caster) ∧
      next.fired = course.fired ++ course.caster.engine.fired now action.firesDue ∧
      next.scheduled = course.scheduled ++ action.scheduled now course.caster := by
  obtain ⟨⟨answer, caster⟩, performed, done⟩ := Fault.bind_eq_ok.1 stepped
  cases done
  exact ⟨answer, performed, rfl, rfl⟩

structure Ordered (course : Course) (settings : Settings) (before : Timeline) : Prop where
  follows : course.caster.Follows settings
  carries : before.Carries course.fired course.scheduled course.caster.engine.timeline

theorem start_ordered {caster : Caster} (follows : caster.Follows settings) :
    (start caster).Ordered settings caster.engine.timeline :=
  ⟨follows, .idle _⟩

theorem Ordered.step {before : Timeline} {now : UInt64} {action : Action}
    (ordered : course.Ordered settings before)
    (stepped : course.step settings now action = .ok next) : next.Ordered settings before := by
  obtain ⟨answer, performed, fired, scheduled⟩ := step_eq_ok stepped
  have steps := perform_steps ordered.follows performed
  refine ⟨steps.follows, ?_⟩
  rw [fired, scheduled]
  exact ordered.carries.trans steps.carries

theorem Ordered.run {before : Timeline} (ordered : course.Ordered settings before)
    (ran : course.run settings actions = .ok last) : last.Ordered settings before := by
  have kept (entry : UInt64 × Action) (_ : entry ∈ actions) (state next : Course)
      (held : state.Ordered settings before)
      (stepped : state.step settings entry.1 entry.2 = .ok next) :
      next.Ordered settings before :=
    held.step stepped
  exact Fault.foldlM_keeps kept ran ordered

theorem step_fired {now : UInt64} {action : Action}
    (stepped : course.step settings now action = .ok next) : course.fired <+: next.fired := by
  obtain ⟨answer, performed, fired, scheduled⟩ := step_eq_ok stepped
  rw [fired]
  exact List.prefix_append ..

theorem run_fired (ran : course.run settings actions = .ok last) : course.fired <+: last.fired := by
  have kept (entry : UInt64 × Action) (_ : entry ∈ actions) (state next : Course)
      (held : course.fired <+: state.fired)
      (stepped : state.step settings entry.1 entry.2 = .ok next) : course.fired <+: next.fired :=
    held.trans (step_fired stepped)
  exact Fault.foldlM_keeps kept ran List.prefix_rfl

-- What is due when an action fires has been fired before or is fired by it.
theorem Ordered.step_fires {before : Timeline} {now : UInt64} {action : Action}
    (ordered : course.Ordered settings before) (fires : action.firesDue = true)
    (stepped : course.step settings now action = .ok next) :
    (before.pending.filter fun entry => decide (entry.due ≤ now)).Sublist next.fired := by
  obtain ⟨answer, performed, fired, scheduled⟩ := step_eq_ok stepped
  have due := ordered.carries.order.filter fun entry => decide (entry.due ≤ now)
  rw [List.filter_append, ← Timeline.elapsed_eq_filter course.caster.engine.timeline] at due
  rw [fired, Engine.fired, if_pos fires]
  exact due.trans (List.filter_sublist.append_right _)

theorem Ordered.run_fires {before : Timeline} {now : UInt64} {action : Action}
    (ordered : course.Ordered settings before) (ran : course.run settings actions = .ok last)
    (member : (now, action) ∈ actions) (fires : action.firesDue = true) :
    (before.pending.filter fun entry => decide (entry.due ≤ now)).Sublist last.fired := by
  induction actions generalizing course with
  | nil => simp at member
  | cons first rest ih =>
    obtain ⟨next, stepped, continued⟩ := Fault.bind_eq_ok.1 ran
    rcases List.mem_cons.1 member with rfl | later
    · exact (ordered.step_fires fires stepped).trans (run_fired continued).sublist
    · exact ih (ordered.step stepped) continued later

theorem run_ok (consistent : settings.laws.Consistent) (follows : course.caster.Follows settings)
    (actions : List (UInt64 × Action)) : ∃ last, course.run settings actions = .ok last := by
  have total (entry : UInt64 × Action) (_ : entry ∈ actions) (state : Course)
      (held : state.caster.Follows settings) :
      ∃ next, state.step settings entry.1 entry.2 = .ok next ∧ next.caster.Follows settings := by
    obtain ⟨answer, next, performed⟩ := perform_ok consistent held entry.1 entry.2
    exact ⟨_, step_ok performed, (perform_steps held performed).follows⟩
  obtain ⟨last, ran, -⟩ := Fault.foldlM_ok total follows
  exact ⟨last, ran⟩

end Course

end Spellcraft.Caster
