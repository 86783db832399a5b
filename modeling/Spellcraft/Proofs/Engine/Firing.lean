import Spellcraft.Engine
import Spellcraft.Proofs.Fault
import Spellcraft.Proofs.Timeline

set_option autoImplicit false

namespace Spellcraft

def Task.ends (task : Task) (effect : Effect) : Bool :=
  decide (task = .expireEffect effect.id)

def Event.isCorrection : Event → Bool
  | .probabilityCorrected .. | .timeNormalized .. => true
  | .spellApplied .. | .spellRejected .. | .effectExpired .. | .parameterOverridden .. => false

structure Firing where
  task : Task
  before : Reality
  after : Reality

theorem Effect.isExpired_iff {effect : Effect} {now : UInt64} :
    effect.isExpired now = true ↔ effect.duration.toNat ≤ now.toNat - effect.start.toNat :=
  decide_eq_true_iff

theorem Effect.isExpired_mono {earlier later : UInt64} (before : earlier ≤ later) {effect : Effect}
    (expired : effect.isExpired earlier = true) : effect.isExpired later = true := by
  have order : earlier.toNat ≤ later.toNat := UInt64.le_iff_toNat_le.1 before
  rw [isExpired_iff] at expired ⊢
  omega

namespace Engine

inductive Fires : Engine → List Firing → Engine → Prop where
  | nil (engine : Engine) : Fires engine [] engine
  | cons {engine next last : Engine} {task : Task} {later : List Firing}
      (one : engine.fire task = .ok next) (rest : Fires next later last) :
      Fires engine (⟨task, engine.reality, next.reality⟩ :: later) last

structure Kept (engine next : Engine) : Prop where
  laws : next.laws = engine.laws
  timeline : next.timeline = engine.timeline
  ids : next.ids = engine.ids
  events : engine.events <+: next.events

theorem Kept.refl (engine : Engine) : engine.Kept engine :=
  ⟨rfl, rfl, rfl, List.prefix_rfl⟩

theorem Kept.trans {first second third : Engine} (left : first.Kept second)
    (right : second.Kept third) : first.Kept third :=
  ⟨right.laws.trans left.laws, right.timeline.trans left.timeline, right.ids.trans left.ids,
    left.events.trans right.events⟩

theorem fire_expireEffect (engine : Engine) (id : EffectId) :
    engine.fire (.expireEffect id) =
      .ok { engine with
        reality := { engine.reality with
          effects := engine.reality.effects.filter fun effect => !decide (effect.id = id) }
        events := engine.events ++
          if engine.reality.effects.any fun effect => decide (effect.id = id) then
            [.effectExpired id] else [] } := by
  by_cases present : engine.reality.effects.any (fun effect => decide (effect.id = id)) = true
  · have removed : ¬ (engine.reality.effects.filter fun effect => !decide (effect.id = id)).length =
        engine.reality.effects.length := by
      simpa [List.length_filter_eq_length_iff] using present
    simp [fire, removed, present, log]
  · have untouched : engine.reality.effects.filter (fun effect => !decide (effect.id = id)) =
        engine.reality.effects := by
      simpa [List.filter_eq_self] using present
    simp [fire, untouched, present]

theorem fire_kept {engine next : Engine} {task : Task} (fired : engine.fire task = .ok next) :
    engine.Kept next := by
  cases task with
  | expireEffect id =>
    rw [fire_expireEffect] at fired
    cases fired
    exact ⟨rfl, rfl, rfl, List.prefix_append ..⟩
  | halveProbability =>
    cases fired
    exact ⟨rfl, rfl, rfl, List.prefix_append ..⟩
  | normalizeTime =>
    obtain ⟨timeSpeed, -, changed⟩ := Fault.bind_eq_ok.1 fired
    split at changed
    · cases changed
      exact ⟨rfl, rfl, rfl, List.prefix_append ..⟩
    · cases changed
      exact .refl engine

theorem fire_withTimeline (engine : Engine) (timeline : Timeline) (task : Task) :
    fire { engine with timeline } task =
      (engine.fire task).map fun fired => { fired with timeline } := by
  cases task with
  | expireEffect id =>
    rw [fire_expireEffect, fire_expireEffect]
    rfl
  | halveProbability => rfl
  | normalizeTime =>
    simp only [fire]
    cases Reality.confine? engine.laws.normalTimeMin engine.laws.normalTimeMax
        engine.reality.timeSpeed with
    | error fault => rfl
    | ok timeSpeed =>
      simp only [Fault.ok_bind]
      split
      · rfl
      · rfl

theorem fire_effects {engine next : Engine} {task : Task} (fired : engine.fire task = .ok next) :
    next.reality.effects = engine.reality.effects.filter fun effect => !task.ends effect := by
  cases task with
  | expireEffect id =>
    rw [fire_expireEffect] at fired
    cases fired
    refine List.filter_congr fun effect _ => ?_
    simp [Task.ends, eq_comm]
  | halveProbability =>
    cases fired
    exact (List.filter_eq_self.2 (by simp [Task.ends])).symm
  | normalizeTime =>
    obtain ⟨timeSpeed, -, changed⟩ := Fault.bind_eq_ok.1 fired
    have untouched : next.reality.effects = engine.reality.effects := by
      split at changed
      all_goals
        cases changed
        rfl
    rw [untouched]
    exact (List.filter_eq_self.2 (by simp [Task.ends])).symm

theorem fire_ok {engine : Engine} {task : Task}
    (able : task = .normalizeTime → engine.laws.normalTimeMin ≤ engine.laws.normalTimeMax) :
    ∃ next, engine.fire task = .ok next := by
  cases task with
  | expireEffect id => exact ⟨_, fire_expireEffect engine id⟩
  | halveProbability => exact ⟨_, rfl⟩
  | normalizeTime =>
    simp only [fire, Reality.confine?, if_pos (able rfl), Fault.ok_bind]
    split
    · exact ⟨_, rfl⟩
    · exact ⟨_, rfl⟩

theorem fireAll_kept {tasks : List Task} {engine last : Engine}
    (fired : tasks.foldlM fire engine = .ok last) : engine.Kept last :=
  Fault.foldlM_keeps (fun _ _ _ _ kept one => kept.trans (fire_kept one)) fired (.refl engine)

theorem fireAll_effects {tasks : List Task} {engine last : Engine}
    (fired : tasks.foldlM fire engine = .ok last) :
    last.reality.effects =
      engine.reality.effects.filter fun effect => !tasks.any (·.ends effect) := by
  induction tasks generalizing engine with
  | nil =>
    cases fired
    exact (List.filter_eq_self.2 (by simp)).symm
  | cons task rest ih =>
    rw [List.foldlM_cons, Fault.bind_eq_ok] at fired
    obtain ⟨next, one, others⟩ := fired
    rw [ih others, fire_effects one, List.filter_filter]
    refine List.filter_congr fun effect _ => ?_
    simp [Bool.and_comm]

theorem fireAll_ok {tasks : List Task} {engine : Engine}
    (able : .normalizeTime ∈ tasks → engine.laws.normalTimeMin ≤ engine.laws.normalTimeMax) :
    ∃ last, tasks.foldlM fire engine = .ok last := by
  -- Firing keeps the laws, so the range that the first task needs is there for all of them.
  have total (task : Task) (member : task ∈ tasks) (state : Engine)
      (kept : state.laws = engine.laws) :
      ∃ next, state.fire task = .ok next ∧ next.laws = engine.laws := by
    have fits (same : task = .normalizeTime) :
        state.laws.normalTimeMin ≤ state.laws.normalTimeMax := by
      rw [kept]
      exact able (same ▸ member)
    obtain ⟨next, one⟩ := fire_ok fits
    exact ⟨next, one, (fire_kept one).laws.trans kept⟩
  obtain ⟨last, fired, -⟩ := Fault.foldlM_ok total rfl
  exact ⟨last, fired⟩

-- Only the normalization of time can meet a fault, and only in a range that holds no value.
theorem fireAll_fault {tasks : List Task} {engine : Engine} (due : .normalizeTime ∈ tasks)
    (empty : ¬ engine.laws.normalTimeMin ≤ engine.laws.normalTimeMax) :
    tasks.foldlM fire engine =
      .error (.emptyRange engine.laws.normalTimeMin engine.laws.normalTimeMax) := by
  induction tasks generalizing engine with
  | nil => simp at due
  | cons task rest ih =>
    by_cases normal : task = .normalizeTime
    · subst normal
      simp only [List.foldlM_cons, fire, Reality.confine?, if_neg empty]
      rfl
    · have later : .normalizeTime ∈ rest := by simpa [eq_comm, normal] using due
      obtain ⟨next, one⟩ : ∃ next, engine.fire task = .ok next :=
        fire_ok fun same => absurd same normal
      have laws := (fire_kept one).laws
      rw [List.foldlM_cons, one, Fault.ok_bind, ← laws]
      exact ih later (by rwa [laws])

theorem fireAll_fires {tasks : List Task} {engine last : Engine}
    (fired : tasks.foldlM fire engine = .ok last) :
    ∃ firings, engine.Fires firings last ∧ firings.map Firing.task = tasks := by
  induction tasks generalizing engine with
  | nil =>
    cases fired
    exact ⟨[], .nil _, rfl⟩
  | cons task rest ih =>
    rw [List.foldlM_cons, Fault.bind_eq_ok] at fired
    obtain ⟨next, one, others⟩ := fired
    obtain ⟨later, fires, tasks⟩ := ih others
    exact ⟨_ :: later, .cons one fires, congrArg (task :: ·) tasks⟩

def forward (engine : Engine) (now : UInt64) : Engine :=
  { engine with timeline := engine.timeline.after now }

theorem runDue_eq_ok {engine last : Engine} {now : UInt64} {count : Nat} :
    engine.runDue now = .ok (count, last) ↔
      count = (engine.timeline.elapsed now).length ∧
        (engine.timeline.due now).foldlM fire (engine.forward now) = .ok last := by
  simp only [runDue, Fault.bind_eq_ok, forward, Timeline.due_eq_elapsed, List.length_map]
  constructor
  · rintro ⟨fired, run, done⟩
    cases done
    exact ⟨rfl, run⟩
  · rintro ⟨rfl, run⟩
    exact ⟨last, run, rfl⟩

theorem runDue_fires {engine last : Engine} {now : UInt64} {count : Nat}
    (run : engine.runDue now = .ok (count, last)) :
    ∃ firings, (engine.forward now).Fires firings last ∧
      firings.map Firing.task = engine.timeline.due now ∧ count = firings.length := by
  obtain ⟨counted, fired⟩ := runDue_eq_ok.1 run
  obtain ⟨firings, fires, tasks⟩ := fireAll_fires fired
  refine ⟨firings, fires, tasks, ?_⟩
  rw [counted, ← List.length_map Firing.task, tasks, Timeline.due_eq_elapsed, List.length_map]

theorem tick_eq_ok {engine last : Engine} {now : UInt64} {count : Nat} :
    engine.tick now = .ok (count, last) ↔
      ∃ fired middle, engine.runDue now = .ok (fired, middle) ∧
        count = fired + (middle.sweep now).1 ∧ last = (middle.sweep now).2 := by
  simp only [tick, Fault.bind_eq_ok]
  constructor
  · rintro ⟨⟨fired, middle⟩, run, done⟩
    cases done
    exact ⟨fired, middle, run, rfl, rfl⟩
  · rintro ⟨fired, middle, run, rfl, rfl⟩
    exact ⟨(fired, middle), run, rfl⟩

theorem tick_fires {engine last : Engine} {now : UInt64} {count : Nat}
    (ticked : engine.tick now = .ok (count, last)) :
    ∃ firings middle, (engine.forward now).Fires firings middle ∧
      firings.map Firing.task = engine.timeline.due now ∧
      last.reality = (middle.sweep now).2.reality := by
  obtain ⟨fired, middle, run, -, rfl⟩ := tick_eq_ok.1 ticked
  obtain ⟨firings, fires, tasks, -⟩ := runDue_fires run
  exact ⟨firings, middle, fires, tasks, rfl⟩

theorem sweep_kept (engine : Engine) (now : UInt64) : engine.Kept (engine.sweep now).2 :=
  ⟨rfl, rfl, rfl, List.prefix_append ..⟩

theorem runDue_kept {engine last : Engine} {now : UInt64} {count : Nat}
    (run : engine.runDue now = .ok (count, last)) : (engine.forward now).Kept last :=
  fireAll_kept (runDue_eq_ok.1 run).2

theorem tick_kept {engine last : Engine} {now : UInt64} {count : Nat}
    (ticked : engine.tick now = .ok (count, last)) : (engine.forward now).Kept last := by
  obtain ⟨fired, middle, run, -, rfl⟩ := tick_eq_ok.1 ticked
  exact (runDue_kept run).trans (sweep_kept middle now)

variable {engine : Engine} {now : UInt64}

theorem runDue_ok (able : .normalizeTime ∈ engine.timeline.due now →
      engine.laws.normalTimeMin ≤ engine.laws.normalTimeMax) :
    ∃ count last, engine.runDue now = .ok (count, last) := by
  have fired : ∃ last, (engine.timeline.due now).foldlM fire (engine.forward now) = .ok last :=
    fireAll_ok able
  obtain ⟨last, fired⟩ := fired
  exact ⟨_, last, runDue_eq_ok.2 ⟨rfl, fired⟩⟩

theorem tick_ok (able : .normalizeTime ∈ engine.timeline.due now →
      engine.laws.normalTimeMin ≤ engine.laws.normalTimeMax) :
    ∃ count last, engine.tick now = .ok (count, last) := by
  obtain ⟨fired, middle, run⟩ := runDue_ok able
  exact ⟨_, _, tick_eq_ok.2 ⟨fired, middle, run, rfl, rfl⟩⟩

theorem runDue_fault (due : .normalizeTime ∈ engine.timeline.due now)
    (empty : ¬ engine.laws.normalTimeMin ≤ engine.laws.normalTimeMax) :
    engine.runDue now =
      .error (.emptyRange engine.laws.normalTimeMin engine.laws.normalTimeMax) := by
  have failed : (engine.timeline.due now).foldlM fire (engine.forward now) =
      .error (.emptyRange engine.laws.normalTimeMin engine.laws.normalTimeMax) :=
    fireAll_fault due empty
  rw [forward] at failed
  simp only [runDue, failed]
  rfl

theorem tick_fault (due : .normalizeTime ∈ engine.timeline.due now)
    (empty : ¬ engine.laws.normalTimeMin ≤ engine.laws.normalTimeMax) :
    engine.tick now = .error (.emptyRange engine.laws.normalTimeMin engine.laws.normalTimeMax) := by
  simp only [tick, runDue_fault due empty]
  rfl

-- No task schedules another, so emptying the queue task by task is the same run.
theorem runDue_eq_pop (engine : Engine) (now : UInt64) :
    engine.runDue now =
      match engine.timeline.popDue now with
      | none => .ok (0, engine)
      | some (task, rest) => do
        let fired ← fire { engine with timeline := rest } task
        let (count, last) ← fired.runDue now
        return (count + 1, last) := by
  cases popped : engine.timeline.popDue now with
  | none =>
    obtain ⟨none_due, same⟩ := Timeline.popDue_eq_none popped
    simp [runDue, none_due, same]
  | some first =>
    obtain ⟨due_eq, after_eq⟩ := Timeline.popDue_eq_some popped
    have cut := fire_withTimeline { engine with timeline := first.2 } (first.2.after now) first.1
    simp only [runDue, due_eq, after_eq, List.foldlM_cons, List.length_cons]
    cases one : fire { engine with timeline := first.2 } first.1 with
    | error fault =>
      rw [one] at cut
      simp only [cut]
      rfl
    | ok fired =>
      rw [one] at cut
      have waiting : fired.timeline = first.2 := (fire_kept one).timeline
      simp only [cut, Except.map, Fault.ok_bind, waiting, bind_assoc, Fault.pure_eq_ok]

end Engine

end Spellcraft
