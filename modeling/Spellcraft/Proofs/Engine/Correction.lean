import Spellcraft.Proofs.Engine.Attempt
import Spellcraft.Proofs.Engine.History
import Spellcraft.Proofs.Number.Sum

set_option autoImplicit false

namespace Spellcraft

/-- One turn of a run: when it was, whether it fires due tasks, and the spells cast in it. -/
structure Moment where
  reading : UInt64
  fires : Bool
  attempts : List Attempt

def Task.corrects (focus : Focus) : Task → Bool
  | .halveProbability => decide (focus = .probability)
  | .normalizeTime => decide (focus = .time)
  | .expireEffect _ => false

theorem Task.corrects_probability (task : Task) :
    task.corrects .probability = decide (task = .halveProbability) := by
  cases task <;> simp [corrects]

theorem Task.corrects_time (task : Task) :
    task.corrects .time = decide (task = .normalizeTime) := by
  cases task <;> simp [corrects]

namespace Moment

def reaches (moment : Moment) (entry : PendingTask) : Bool :=
  moment.fires && decide (entry.due ≤ moment.reading)

def corrections (moment : Moment) : List PendingTask :=
  moment.attempts.flatMap Attempt.corrections

/-- The corrections that were called for and that no later moment fired. -/
def waiting : List Moment → List PendingTask
  | [] => []
  | moment :: later =>
    (moment.corrections.filter fun entry => later.all fun next => !next.reaches entry) ++
      waiting later

theorem waiting_concat (moments : List Moment) (last : Moment) :
    waiting (moments ++ [last]) =
      ((waiting moments).filter fun entry => !last.reaches entry) ++ last.corrections := by
  induction moments with
  | nil => simp [waiting]
  | cons moment later ih =>
    rw [List.cons_append, waiting, ih, waiting, List.filter_append, List.filter_filter,
      List.append_assoc]
    simp [Bool.and_comm]

end Moment

namespace Turn

def firesDue : Turn → Bool
  | .operate operation => operation.firesDue
  | .rebuild _ | .restart _ => false

def attempts (now : UInt64) (engine : Engine) : Turn → List Attempt
  | .operate operation => operation.attempts now engine
  | .rebuild _ | .restart _ => []

def moment (turn : Turn) (now : UInt64) (engine : Engine) : Moment :=
  ⟨now, turn.firesDue, turn.attempts now engine⟩

end Turn

namespace History

def moments : List (UInt64 × Turn) → History → List Moment
  | [], _ => []
  | (now, turn) :: later, history =>
    turn.moment now history.engine ::
      match history.step now turn with
      | .error _ => []
      | .ok next => moments later next

theorem run_moments {holds : History → List Moment → Prop} {turns : List (UInt64 × Turn)}
    (kept : ∀ entry ∈ turns, ∀ history next past, holds history past →
      history.step entry.1 entry.2 = .ok next →
      holds next (past ++ [entry.2.moment entry.1 history.engine]))
    {start last : History} {past : List Moment} (ran : start.run turns = .ok last)
    (initial : holds start past) : holds last (past ++ moments turns start) := by
  induction turns generalizing start past with
  | nil =>
    cases ran
    simpa [moments] using initial
  | cons entry later ih =>
    rw [run, List.foldlM_cons, Fault.bind_eq_ok] at ran
    obtain ⟨next, stepped, continued⟩ := ran
    have held := kept entry (by simp) start next past initial stepped
    have last_held := ih (fun other member => kept other (List.mem_cons_of_mem _ member))
      continued held
    simpa [moments, stepped] using last_held

end History

namespace Engine

variable {engine next last : Engine} {now : UInt64}

def dueCount (task : Task) (now : UInt64) (entries : List PendingTask) : Nat :=
  entries.countP fun entry => decide (entry.task = task) && decide (entry.due ≤ now)

def pendingCorrections (engine : Engine) : List PendingTask :=
  engine.timeline.pending.filter PendingTask.isCorrection

def normalized (laws : Laws) (timeSpeed : Float) : Float :=
  Number.confine laws.normalTimeMin laws.normalTimeMax timeSpeed

def corrected (laws : Laws) (focus : Focus) (value : Float) : Float :=
  match focus with
  | .energy | .entropy => value
  | .probability => value / 2.0
  | .time => normalized laws value

theorem fire_get {task : Task} (range : engine.laws.normalTimeMin ≤ engine.laws.normalTimeMax)
    (fired : engine.fire task = .ok next) (focus : Focus) :
    next.reality.get focus = if task.corrects focus then
      corrected engine.laws focus (engine.reality.get focus) else engine.reality.get focus := by
  cases task with
  | expireEffect id =>
    rw [fire_expireEffect] at fired
    cases fired
    cases focus <;> rfl
  | halveProbability =>
    cases fired
    cases focus <;> rfl
  | normalizeTime =>
    simp only [fire, Reality.confine?, if_pos range, Fault.ok_bind] at fired
    have moves := Number.confine_moves range engine.reality.timeSpeed
    split at fired
    next =>
      cases fired
      cases focus <;> rfl
    next still =>
      cases fired
      cases focus with
      | time => exact (moves.resolve_right still).symm
      | energy | probability | entropy => rfl

theorem fireAll_get {tasks : List Task}
    (range : engine.laws.normalTimeMin ≤ engine.laws.normalTimeMax)
    (fired : tasks.foldlM fire engine = .ok last) (focus : Focus) :
    last.reality.get focus =
      (corrected engine.laws focus)^[tasks.countP (·.corrects focus)]
        (engine.reality.get focus) := by
  induction tasks generalizing engine with
  | nil =>
    cases fired
    rfl
  | cons task rest ih =>
    rw [List.foldlM_cons, Fault.bind_eq_ok] at fired
    obtain ⟨next, one, others⟩ := fired
    have laws := (fire_kept one).laws
    rw [ih (by rwa [laws]) others, fire_get range one, laws]
    cases correction : task.corrects focus with
    | true => simp [correction, Function.iterate_succ_apply]
    | false => simp [correction]

theorem runDue_get {count : Nat} (range : engine.laws.normalTimeMin ≤ engine.laws.normalTimeMax)
    (run : engine.runDue now = .ok (count, next)) (focus : Focus) :
    next.reality.get focus =
      (corrected engine.laws focus)^[(engine.timeline.due now).countP (·.corrects focus)]
        (engine.reality.get focus) :=
  have forward_range : (engine.forward now).laws.normalTimeMin ≤
      (engine.forward now).laws.normalTimeMax := range
  fireAll_get forward_range (runDue_eq_ok.1 run).2 focus

theorem countP_due (timeline : Timeline) (task : Task) (now : UInt64) :
    (timeline.due now).countP (fun other => decide (other = task)) =
      dueCount task now timeline.pending := by
  rw [Timeline.due_eq_elapsed, Timeline.elapsed_eq_filter, dueCount, List.countP_map,
    List.countP_filter]
  rfl

theorem dueCount_pendingCorrections {task : Task} (correction : task.isCorrection = true)
    (now : UInt64) (engine : Engine) :
    dueCount task now engine.pendingCorrections = dueCount task now engine.timeline.pending := by
  rw [dueCount, pendingCorrections, List.countP_filter]
  refine List.countP_congr fun entry _ => ?_
  by_cases same : entry.task = task
  · simp [same, PendingTask.isCorrection, correction]
  · simp [same]

/-- What becomes of the corrections that wait when the due ones are fired: each one acts once, on
the value before it, and the others still wait. -/
structure Corrected (engine : Engine) (now : UInt64) (waiting : List PendingTask) (next : Engine) :
    Prop where
  probability : next.reality.probability =
    (· / 2.0)^[dueCount .halveProbability now waiting] engine.reality.probability
  timeSpeed : next.reality.timeSpeed =
    (normalized engine.laws)^[dueCount .normalizeTime now waiting] engine.reality.timeSpeed
  left : next.pendingCorrections.Perm (waiting.filter fun entry => decide (now < entry.due))

theorem runDue_corrected {waiting : List PendingTask} {count : Nat}
    (range : engine.laws.normalTimeMin ≤ engine.laws.normalTimeMax)
    (accounted : engine.pendingCorrections.Perm waiting)
    (run : engine.runDue now = .ok (count, next)) : engine.Corrected now waiting next := by
  have counted (task : Task) (correction : task.isCorrection = true) :
      (engine.timeline.due now).countP (fun other => decide (other = task)) =
        dueCount task now waiting := by
    rw [countP_due, ← dueCount_pendingCorrections correction]
    exact accounted.countP_eq _
  have probability : next.reality.probability = _ := runDue_get range run .probability
  have timeSpeed : next.reality.timeSpeed = _ := runDue_get range run .time
  simp only [Task.corrects_probability, counted .halveProbability rfl] at probability
  simp only [Task.corrects_time, counted .normalizeTime rfl] at timeSpeed
  refine ⟨probability, timeSpeed, ?_⟩
  · have left : next.timeline = engine.timeline.after now := (runDue_kept run).timeline
    rw [pendingCorrections, left, Timeline.after_pending_eq_filter, List.filter_comm]
    exact accounted.filter _

theorem tick_corrected {waiting : List PendingTask} {count : Nat}
    (range : engine.laws.normalTimeMin ≤ engine.laws.normalTimeMax)
    (accounted : engine.pendingCorrections.Perm waiting)
    (ticked : engine.tick now = .ok (count, next)) : engine.Corrected now waiting next := by
  obtain ⟨_, middle, run, -, rfl⟩ := tick_eq_ok.1 ticked
  obtain ⟨probability, timeSpeed, left⟩ := runDue_corrected range accounted run
  exact ⟨probability, timeSpeed, left⟩

theorem runDue_timeSpeed {count : Nat}
    (range : engine.laws.normalTimeMin ≤ engine.laws.normalTimeMax)
    (run : engine.runDue now = .ok (count, next)) :
    next.reality.timeSpeed =
      (normalized engine.laws)^[dueCount .normalizeTime now engine.timeline.pending]
        engine.reality.timeSpeed := by
  rw [← dueCount_pendingCorrections rfl]
  exact (runDue_corrected range (.refl _) run).timeSpeed

theorem perform_pending {operation : Operation} {answer : Answer}
    (performed : engine.perform now operation = .ok (answer, next)) :
    next.timeline.pending.Perm
      ((engine.timeline.pending.filter fun entry =>
        !(operation.firesDue && decide (entry.due ≤ now))) ++ operation.scheduled now engine) := by
  have carried := (perform_carries performed).perm
  cases fires : operation.firesDue with
  | true =>
    rw [fires, fired, if_pos rfl, ← Timeline.elapsed_append_after engine.timeline now,
      List.append_assoc, List.perm_append_left_iff, Timeline.after_pending_eq_filter] at carried
    simpa [← UInt64.not_le] using carried
  | false => simpa [fires, fired] using carried

theorem operation_corrections (now : UInt64) (engine : Engine) (operation : Operation) :
    (operation.scheduled now engine).filter PendingTask.isCorrection =
      (operation.attempts now engine).flatMap Attempt.corrections := by
  cases operation with
  | cast spells => exact scheduled_corrections now spells engine
  | runDue | sweep | tick | override | setDimensions | drain => rfl

end Engine

namespace History

variable {history next : History} {now : UInt64} {turn : Turn}

theorem step_accounted {past : List Moment}
    (accounted : history.engine.pendingCorrections.Perm (Moment.waiting past))
    (stepped : history.step now turn = .ok next) (queued : ∀ laws, turn ≠ .restart laws) :
    next.engine.pendingCorrections.Perm
      (Moment.waiting (past ++ [turn.moment now history.engine])) := by
  rw [Moment.waiting_concat]
  cases turn with
  | operate operation =>
    obtain ⟨⟨answer, engine⟩, performed, done⟩ := Fault.bind_eq_ok.1 stepped
    cases done
    have pending := (Engine.perform_pending performed).filter PendingTask.isCorrection
    rw [List.filter_append, Engine.operation_corrections, List.filter_comm] at pending
    exact pending.trans ((accounted.filter _).append_right _)
  | rebuild laws =>
    cases stepped
    have same : (history.replace laws history.engine.timeline.pending).engine.timeline =
        history.engine.timeline := Timeline.ofList_pending _
    have idle : (Turn.rebuild laws).moment now history.engine = ⟨now, false, []⟩ := rfl
    rw [Engine.pendingCorrections, same, idle]
    simpa [Moment.reaches, Moment.corrections, Engine.pendingCorrections] using accounted
  | restart laws => exact absurd rfl (queued laws)

end History

end Spellcraft
