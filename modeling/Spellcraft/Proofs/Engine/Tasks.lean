import Spellcraft.Proofs.Engine.Operation

set_option autoImplicit false

namespace Spellcraft

structure Timeline.Carries (before : Timeline) (fired scheduled : List PendingTask)
    (after : Timeline) : Prop where
  perm : (fired ++ after.pending).Perm (before.pending ++ scheduled)
  order : before.pending.Sublist (fired ++ after.pending)

namespace Timeline.Carries

theorem schedule (timeline : Timeline) (entries : List PendingTask) :
    timeline.Carries [] entries (timeline.scheduleAll entries) :=
  ⟨scheduleAll_perm timeline entries, sublist_scheduleAll timeline entries⟩

theorem idle (timeline : Timeline) : timeline.Carries [] [] timeline :=
  schedule timeline []

theorem fire (timeline : Timeline) (now : UInt64) :
    timeline.Carries (timeline.elapsed now) [] (timeline.after now) := by
  constructor
  · rw [elapsed_append_after, List.append_nil]
  · simp only [elapsed_append_after, List.Sublist.refl]

theorem trans {first second third : Timeline}
    {fired scheduled refired rescheduled : List PendingTask}
    (left : first.Carries fired scheduled second)
    (right : second.Carries refired rescheduled third) :
    first.Carries (fired ++ refired) (scheduled ++ rescheduled) third := by
  constructor
  · have moved := right.perm.append_left fired
    have joined := left.perm.append_right rescheduled
    simp only [List.append_assoc] at moved joined ⊢
    exact moved.trans joined
  · rw [List.append_assoc]
    exact left.order.trans (right.order.append_left fired)

end Timeline.Carries

namespace Engine

def scheduledOne (engine : Engine) (now : UInt64) (spell : Spell) : List PendingTask :=
  match engine.reality.cast engine.laws spell with
  -- A refused spell has no tasks.
  | .ok (outcome, _) => outcome.tasks now engine.ids.next
  | .error _ => []

def scheduled (now : UInt64) : List Spell → Engine → List PendingTask
  | [], _ => []
  | spell :: others, engine =>
    match engine.castOne now spell with
    | .error _ => []
    | .ok (verdict, next) =>
      engine.scheduledOne now spell ++ if verdict.success then scheduled now others next else []

def Operation.firesDue : Operation → Bool
  | .runDue | .tick => true
  | .cast _ | .sweep | .override .. | .setDimensions _ | .drain => false

def Operation.scheduled (now : UInt64) (engine : Engine) : Operation → List PendingTask
  | .cast spells => Engine.scheduled now spells engine
  | .runDue | .sweep | .tick | .override .. | .setDimensions _ | .drain => []

def fired (engine : Engine) (now : UInt64) (fires : Bool) : List PendingTask :=
  if fires then engine.timeline.elapsed now else []

variable {engine next last : Engine} {now : UInt64}

theorem castOne_carries {spell : Spell} {verdict : Verdict}
    (cast : engine.castOne now spell = .ok (verdict, next)) :
    engine.timeline.Carries [] (engine.scheduledOne now spell) next.timeline := by
  obtain ⟨outcome, reality, decided, -, -, casts⟩ := castOne_casts cast
  rw [casts.timeline, scheduledOne, decided]
  exact .schedule _ _

theorem cast_carries {spells : List Spell} {verdict : Verdict}
    (cast : engine.cast now spells = .ok (verdict, last)) :
    engine.timeline.Carries [] (scheduled now spells engine) last.timeline := by
  induction spells generalizing engine with
  | nil =>
    cases cast
    exact .idle _
  | cons spell others ih =>
    obtain ⟨first, next, one, ⟨accepted, rest⟩ | ⟨refused, -, rfl⟩⟩ := cast_cons cast
    · simpa [scheduled, one, accepted] using (castOne_carries one).trans (ih rest)
    · simpa [scheduled, one, refused] using castOne_carries one

theorem perform_carries {operation : Operation} {answer : Answer}
    (performed : engine.perform now operation = .ok (answer, next)) :
    engine.timeline.Carries (engine.fired now operation.firesDue)
      (operation.scheduled now engine) next.timeline := by
  cases operation with
  | cast spells =>
    obtain ⟨⟨verdict, last⟩, cast, done⟩ := Fault.bind_eq_ok.1 performed
    cases done
    exact cast_carries cast
  | runDue =>
    obtain ⟨⟨count, last⟩, run, done⟩ := Fault.bind_eq_ok.1 performed
    cases done
    rw [(runDue_kept run).timeline]
    exact .fire engine.timeline now
  | tick =>
    obtain ⟨⟨count, last⟩, ticked, done⟩ := Fault.bind_eq_ok.1 performed
    cases done
    rw [(tick_kept ticked).timeline]
    exact .fire engine.timeline now
  | sweep | override | setDimensions | drain =>
    cases performed
    exact .idle _

end Engine

end Spellcraft
