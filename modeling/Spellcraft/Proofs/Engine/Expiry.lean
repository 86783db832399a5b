import Spellcraft.Proofs.Engine.History

set_option autoImplicit false

namespace Spellcraft

def Effect.deadline (effect : Effect) : UInt64 :=
  Number.capped64 (effect.start.toNat + effect.duration.toNat)

theorem Effect.deadline_toNat {effect : Effect}
    (fits : effect.start.toNat + effect.duration.toNat ≤ 0xFFFFFFFFFFFFFFFF) :
    effect.deadline.toNat = effect.start.toNat + effect.duration.toNat := by
  rw [deadline, Number.capped64_toNat]
  omega

-- A clock that never goes back makes the age of an effect the time since its start.
theorem Effect.isExpired_eq_deadline {effect : Effect} {now : UInt64}
    (fits : effect.start.toNat + effect.duration.toNat ≤ 0xFFFFFFFFFFFFFFFF)
    (started : effect.start ≤ now) :
    effect.isExpired now = decide (effect.deadline ≤ now) := by
  have order : effect.start.toNat ≤ now.toNat := UInt64.le_iff_toNat_le.1 started
  rw [Bool.eq_iff_iff, isExpired_iff, decide_eq_true_iff, UInt64.le_iff_toNat_le,
    deadline_toNat fits]
  omega

namespace Timeline

def ends (timeline : Timeline) (id : EffectId) : List PendingTask :=
  timeline.pending.filter fun entry => decide (entry.task = .expireEffect id)

theorem mem_ends {timeline : Timeline} {id : EffectId} {entry : PendingTask} :
    entry ∈ timeline.ends id ↔ entry ∈ timeline.pending ∧ entry.task = .expireEffect id := by
  simp [ends]

theorem ends_after (timeline : Timeline) (now : UInt64) (id : EffectId) :
    (timeline.after now).ends id =
      (timeline.ends id).filter fun entry => decide (now < entry.due) := by
  simp only [ends, after_pending_eq_filter, List.filter_filter, Bool.and_comm]

theorem ends_scheduleAll {entries : List PendingTask} {id : EffectId}
    (others : ∀ entry ∈ entries, entry.task ≠ .expireEffect id) (timeline : Timeline) :
    (timeline.scheduleAll entries).ends id = timeline.ends id :=
  filter_scheduleAll_of_neg (by simpa using others) timeline

theorem ends_schedule {timeline : Timeline} {id : EffectId} (due : UInt64)
    (fresh : timeline.ends id = []) :
    (timeline.schedule due (.expireEffect id)).ends id = [⟨due, .expireEffect id⟩] := by
  have placed := (enqueue_perm ⟨due, .expireEffect id⟩ timeline.pending).filter fun entry =>
    decide (entry.task = .expireEffect id)
  rw [List.filter_cons_of_pos (by simp), show timeline.pending.filter _ = [] from fresh] at placed
  exact List.perm_singleton.1 placed

end Timeline

namespace Engine

/-- Every effect at work began by the horizon and has its end pending, once; what is pending ends
only effects that were created. -/
structure Paired (engine : Engine) (horizon : UInt64) : Prop where
  timers : ∀ effect ∈ engine.reality.effects,
    engine.timeline.ends effect.id = [⟨effect.deadline, .expireEffect effect.id⟩]
  started : ∀ effect ∈ engine.reality.effects, effect.start ≤ horizon
  known : ∀ id, ∀ entry ∈ engine.timeline.ends id, engine.ids.Drawn id

variable {engine next last : Engine} {horizon now : UInt64}

theorem Paired.less (paired : engine.Paired horizon) (ids : next.ids = engine.ids)
    (effects : next.reality.effects ⊆ engine.reality.effects)
    (pending : next.timeline.pending ⊆ engine.timeline.pending)
    (timers : ∀ effect ∈ next.reality.effects,
      next.timeline.ends effect.id = engine.timeline.ends effect.id) : next.Paired horizon := by
  constructor
  · intro effect member
    rw [timers effect member]
    exact paired.timers effect (effects member)
  · exact fun effect member => paired.started effect (effects member)
  · intro id entry member
    obtain ⟨inside, task⟩ := Timeline.mem_ends.1 member
    rw [ids]
    exact paired.known id entry (Timeline.mem_ends.2 ⟨pending inside, task⟩)

theorem Casts.ends_other {spell : Spell} {outcome : Outcome} {leaves : Bool} {id : EffectId}
    (casts : engine.Casts now spell outcome next) (fits : outcome.Fits leaves)
    (apart : ∀ plan, outcome.effect = some plan → id ≠ engine.ids.next) :
    next.timeline.ends id = engine.timeline.ends id := by
  rw [casts.timeline]
  refine Timeline.ends_scheduleAll (fun entry member => ?_) engine.timeline
  rcases List.mem_append.1 member with timer | correction
  · obtain ⟨plan, begins, rfl⟩ := List.mem_map.1 timer
    simpa using (apart plan (Option.mem_toList.1 begins)).symm
  · obtain ⟨later, inside, rfl⟩ := List.mem_map.1 correction
    exact fits.corrections later inside id

theorem Casts.ends_own {spell : Spell} {outcome : Outcome} {leaves : Bool} {plan : EffectPlan}
    (casts : engine.Casts now spell outcome next) (fits : outcome.Fits leaves)
    (begins : outcome.effect = some plan) (fresh : engine.timeline.ends engine.ids.next = []) :
    next.timeline.ends engine.ids.next =
      [⟨(plan.begin now engine.ids.next spell.anchor).deadline,
        .expireEffect engine.ids.next⟩] := by
  rw [casts.timeline, Outcome.tasks, begins]
  simp only [Option.toList_some, List.map_cons, List.map_nil, List.singleton_append,
    Timeline.scheduleAll_cons]
  rw [Timeline.ends_scheduleAll]
  · exact Timeline.ends_schedule _ fresh
  · intro entry member
    obtain ⟨later, inside, rfl⟩ := List.mem_map.1 member
    exact fits.corrections later inside _

theorem Paired.castOne {spell : Spell} {verdict : Verdict} (paired : engine.Paired horizon)
    (cast : engine.castOne now spell = .ok (verdict, next)) (distinct : next.ids.Distinct)
    (reading : now ≤ horizon) : next.Paired horizon := by
  obtain ⟨outcome, _, -, -, fits, casts⟩ := castOne_casts cast
  -- The identifier of an effect that begins is new, so nothing pending is about it.
  have fresh (plan : EffectPlan) (begins : outcome.effect = some plan) :
      engine.ids.used < next.ids.used ∧ engine.timeline.ends engine.ids.next = [] := by
    have advanced : engine.ids.used < next.ids.used := by
      rw [casts.used, begins]
      exact Nat.lt_succ_self _
    refine ⟨advanced, List.eq_nil_iff_forall_not_mem.2 fun entry member => ?_⟩
    exact (paired.known _ entry member).ne_next casts.draw advanced distinct rfl
  constructor
  · rw [casts.effects]
    intro effect member
    rcases List.mem_append.1 member with old | new
    · have timer := paired.timers effect old
      rw [casts.ends_other fits, timer]
      intro plan begins same
      rw [same, (fresh plan begins).2] at timer
      cases timer
    · obtain ⟨plan, begins, rfl⟩ := List.mem_map.1 new
      have planned := Option.mem_toList.1 begins
      exact casts.ends_own fits planned (fresh plan planned).2
  · rw [casts.effects]
    intro effect member
    rcases List.mem_append.1 member with old | new
    · exact paired.started effect old
    · obtain ⟨plan, begins, rfl⟩ := List.mem_map.1 new
      exact reading
  · intro id entry member
    by_cases same : id = engine.ids.next ∧ outcome.effect.isSome = true
    · obtain ⟨plan, begins⟩ := Option.isSome_iff_exists.1 same.2
      exact ⟨engine.ids.used, (fresh plan begins).1, by rw [same.1, casts.draw]; rfl⟩
    · rw [casts.ends_other fits fun plan begins own => same ⟨own, by rw [begins]; rfl⟩] at member
      exact (paired.known id entry member).later casts.onward.ids

theorem Paired.cast {spells : List Spell} {verdict : Verdict} (paired : engine.Paired horizon)
    (cast : engine.cast now spells = .ok (verdict, last)) (distinct : last.ids.Distinct)
    (reading : now ≤ horizon) : last.Paired horizon := by
  have kept (state : Engine) (spell : Spell) (verdict : Verdict) (next : Engine)
      (held : state.ids.Distinct → state.Paired horizon)
      (one : state.castOne now spell = .ok (verdict, next)) (distinct : next.ids.Distinct) :
      next.Paired horizon :=
    (held (distinct.before (castOne_onward one).ids)).castOne one distinct reading
  exact cast_keeps kept cast (fun _ => paired) distinct

theorem Paired.due_ends (paired : engine.Paired horizon) {effect : Effect}
    (active : effect ∈ engine.reality.effects) :
    (engine.timeline.due now).any (·.ends effect) = decide (effect.deadline ≤ now) := by
  have timer (entry : PendingTask) :
      entry ∈ engine.timeline.pending ∧ entry.task = .expireEffect effect.id ↔
        entry = ⟨effect.deadline, .expireEffect effect.id⟩ := by
    rw [← Timeline.mem_ends, paired.timers effect active, List.mem_singleton]
  rw [Bool.eq_iff_iff, decide_eq_true_iff, Timeline.due_eq_elapsed, Timeline.elapsed_eq_filter]
  -- A task that ends the effect is its timer, so it is due when the timer is.
  constructor
  · intro found
    obtain ⟨task, due, ended⟩ := List.any_eq_true.1 found
    obtain ⟨entry, member, rfl⟩ := List.mem_map.1 due
    obtain ⟨pending, late⟩ := List.mem_filter.1 member
    have same := (timer entry).1 ⟨pending, of_decide_eq_true ended⟩
    rw [same] at late
    exact of_decide_eq_true late
  · intro late
    obtain ⟨pending, task⟩ := (timer _).2 rfl
    refine List.any_eq_true.2 ⟨_, List.mem_map_of_mem (List.mem_filter.2 ⟨pending, ?_⟩), ?_⟩
    · exact decide_eq_true late
    · exact decide_eq_true task

theorem Paired.runDue_effects {count : Nat} (paired : engine.Paired horizon)
    (run : engine.runDue now = .ok (count, last)) : last.reality.effects =
      engine.reality.effects.filter fun effect => !decide (effect.deadline ≤ now) := by
  rw [fireAll_effects (runDue_eq_ok.1 run).2]
  exact List.filter_congr fun effect active => by rw [paired.due_ends active]

theorem Paired.runDue {count : Nat} (paired : engine.Paired horizon)
    (run : engine.runDue now = .ok (count, last)) : last.Paired horizon := by
  have kept := runDue_kept run
  have effects := paired.runDue_effects run
  have timeline : last.timeline = engine.timeline.after now := kept.timeline
  refine paired.less kept.ids ?_ ?_ fun effect active => ?_
  · rw [effects]
    exact List.filter_sublist.subset
  · rw [timeline]
    exact List.dropWhile_subset _
  · rw [effects] at active
    -- An effect that is left has a timer that is not due, which is left as well.
    obtain ⟨before, lasting⟩ := List.mem_filter.1 active
    rw [timeline, Timeline.ends_after, paired.timers effect before]
    simpa [UInt64.not_le] using lasting

theorem Paired.sweep (paired : engine.Paired horizon) (now : UInt64) :
    (engine.sweep now).2.Paired horizon :=
  paired.less rfl List.filter_sublist.subset (fun _ member => member) fun _ _ => rfl

theorem Paired.perform {operation : Operation} {answer : Answer} (paired : engine.Paired horizon)
    (performed : engine.perform now operation = .ok (answer, next)) (distinct : next.ids.Distinct)
    (reading : now ≤ horizon) : next.Paired horizon := by
  cases operation with
  | cast spells =>
    obtain ⟨⟨verdict, last⟩, cast, done⟩ := Fault.bind_eq_ok.1 performed
    cases done
    exact paired.cast cast distinct reading
  | runDue =>
    obtain ⟨⟨count, last⟩, run, done⟩ := Fault.bind_eq_ok.1 performed
    cases done
    exact paired.runDue run
  | sweep =>
    cases performed
    exact paired.sweep now
  | tick =>
    obtain ⟨⟨count, last⟩, ticked, done⟩ := Fault.bind_eq_ok.1 performed
    obtain ⟨fired, middle, run, -, rfl⟩ := tick_eq_ok.1 ticked
    cases done
    exact (paired.runDue run).sweep now
  | override focus value =>
    cases performed
    cases focus <;> exact ⟨paired.timers, paired.started, paired.known⟩
  | setDimensions | drain =>
    cases performed
    exact ⟨paired.timers, paired.started, paired.known⟩

def survivors (engine : Engine) (now : UInt64) : List Effect :=
  engine.reality.effects.filter fun effect =>
    decide (now.toNat - effect.start.toNat < effect.duration.toNat)

theorem sweep_survivors (engine : Engine) (now : UInt64) :
    (engine.sweep now).2.reality.effects = engine.survivors now := by
  refine List.filter_congr fun effect _ => ?_
  rw [Bool.eq_iff_iff, Bool.not_eq_true', ← Bool.not_eq_true, Effect.isExpired_iff,
    decide_eq_true_iff, Nat.not_le]

theorem Paired.runDue_survivors {count : Nat} (paired : engine.Paired now)
    (fits : ∀ effect ∈ engine.reality.effects,
      effect.start.toNat + effect.duration.toNat ≤ 0xFFFFFFFFFFFFFFFF)
    (run : engine.runDue now = .ok (count, last)) :
    last.reality.effects = engine.survivors now := by
  rw [paired.runDue_effects run, ← sweep_survivors]
  refine List.filter_congr fun effect active => ?_
  rw [Effect.isExpired_eq_deadline (fits effect active) (paired.started effect active)]

theorem sweep_idle (settled : last.reality.effects = engine.survivors now) :
    last.sweep now = (0, last) := by
  have lasting : ∀ effect ∈ last.reality.effects, effect.isExpired now = false := by
    rw [settled, ← sweep_survivors]
    intro effect member
    simpa using (List.mem_filter.1 member).2
  have none_over : last.reality.effects.filter (·.isExpired now) = [] := by
    simpa [List.filter_eq_nil_iff] using lasting
  have left : (last.reality.effects.filter fun effect => !effect.isExpired now) =
      last.reality.effects := by
    simpa [List.filter_eq_self] using lasting
  simp [sweep, none_over, left]

theorem untimed_tick (laws : Laws) (ids : IdSupply) (reality : Reality) (now : UInt64) :
    (ofParts laws ids reality []).tick now =
      .ok ((ofParts laws ids reality []).sweep now) := by
  have idle : (ofParts laws ids reality []).runDue now = .ok (0, ofParts laws ids reality []) := rfl
  simp [tick, idle]

end Engine

namespace History

open Engine

variable {history next : History} {horizon now : UInt64} {turn : Turn}

theorem step_paired (paired : history.engine.Paired horizon)
    (stepped : history.step now turn = .ok next) (queued : ∀ laws, turn ≠ .restart laws)
    (distinct : next.engine.ids.Distinct) (reading : now ≤ horizon) :
    next.engine.Paired horizon := by
  cases turn with
  | operate operation =>
    obtain ⟨⟨answer, engine⟩, performed, done⟩ := Fault.bind_eq_ok.1 stepped
    cases done
    exact paired.perform performed distinct reading
  | rebuild laws =>
    cases stepped
    have same : (history.replace laws history.engine.timeline.pending).engine.timeline =
        history.engine.timeline := Timeline.ofList_pending _
    refine paired.less rfl (List.Subset.refl _) ?_ fun effect _ => ?_
    · rw [same]
      exact List.Subset.refl _
    · rw [same]
  | restart laws => exact absurd rfl (queued laws)

theorem run_paired {turns : List (UInt64 × Turn)} {start last : History}
    (ran : start.run turns = .ok last) (paired : start.engine.Paired horizon)
    (queued : ∀ entry ∈ turns, ∀ laws, entry.2 ≠ .restart laws)
    (distinct : last.engine.ids.Distinct) (readings : ∀ entry ∈ turns, entry.1 ≤ horizon) :
    last.engine.Paired horizon := by
  have kept (entry : UInt64 × Turn) (member : entry ∈ turns) (history next : History)
      (held : history.engine.ids.Distinct → history.engine.Paired horizon)
      (stepped : history.step entry.1 entry.2 = .ok next) (distinct : next.engine.ids.Distinct) :
      next.engine.Paired horizon :=
    step_paired (held (distinct.before (step_onward stepped).1)) stepped (queued entry member)
      distinct (readings entry member)
  exact Fault.foldlM_keeps kept ran (fun _ => paired) distinct

theorem start_paired (laws : Laws) (ids : IdSupply) (horizon : UInt64) :
    (start laws ids).engine.Paired horizon := by
  refine ⟨by simp [start, Engine.new, ofParts], by simp [start, Engine.new, ofParts], ?_⟩
  intro id entry member
  cases member

theorem expiry_agrees (laws : Laws) (ids : IdSupply) (turns : List (UInt64 × Turn))
    (history : History) (ran : (start laws ids).run turns = .ok history)
    (queued : ∀ entry ∈ turns, ∀ laws, entry.2 ≠ .restart laws)
    (distinct : history.engine.ids.Distinct)
    (fits : ∀ effect ∈ history.engine.reality.effects,
      effect.start.toNat + effect.duration.toNat ≤ 0xFFFFFFFFFFFFFFFF) :
    let engine := history.engine
    let low := engine.laws.normalTimeMin
    let high := engine.laws.normalTimeMax
    (∀ effect ∈ engine.reality.effects, ∃ due : UInt64,
      due.toNat = effect.start.toNat + effect.duration.toNat ∧
      engine.timeline.pending.filter (fun entry => decide (entry.task = .expireEffect effect.id)) =
        [⟨due, .expireEffect effect.id⟩]) ∧
    ∀ now, (∀ entry ∈ turns, entry.1 ≤ now) →
      let survivors := engine.reality.effects.filter fun effect =>
        decide (now.toNat - effect.start.toNat < effect.duration.toNat)
      (engine.sweep now).2.reality.effects = survivors ∧
      (∀ otherLaws otherIds, ∃ count next,
        (ofParts otherLaws otherIds engine.reality []).tick now = .ok (count, next) ∧
        next.reality.effects = survivors) ∧
      if .normalizeTime ∈ engine.timeline.due now ∧ ¬ low ≤ high then
        engine.runDue now = .error (.emptyRange low high) ∧
        engine.tick now = .error (.emptyRange low high)
      else
        ∃ count next, engine.runDue now = .ok (count, next) ∧ next.reality.effects = survivors ∧
          next.sweep now = (0, next) ∧ engine.tick now = .ok (count, next) := by
  intro engine low high
  constructor
  · intro effect active
    -- No reading is later than the greatest one, so the pairing needs no clock.
    have latest : ∀ entry ∈ turns, entry.1 ≤ (0xFFFFFFFFFFFFFFFF : UInt64) := by
      intro entry _
      rw [UInt64.le_iff_toNat_le]
      exact Nat.le_of_lt_succ entry.1.toNat_lt
    have paired := run_paired ran (start_paired laws ids _) queued distinct latest
    exact ⟨effect.deadline, Effect.deadline_toNat (fits effect active),
      paired.timers effect active⟩
  · intro now readings survivors
    have paired := run_paired ran (start_paired laws ids now) queued distinct readings
    have swept : (engine.sweep now).2.reality.effects = survivors := sweep_survivors engine now
    refine ⟨swept, fun otherLaws otherIds => ?_, ?_⟩
    · refine ⟨_, _, untimed_tick otherLaws otherIds engine.reality now, ?_⟩
      exact sweep_survivors _ now
    · split
      next stuck => exact ⟨runDue_fault stuck.1 stuck.2, tick_fault stuck.1 stuck.2⟩
      next free =>
        have able : .normalizeTime ∈ engine.timeline.due now → low ≤ high := by
          intro due
          by_contra empty
          exact free ⟨due, empty⟩
        obtain ⟨count, last, run⟩ := runDue_ok able
        have settled := paired.runDue_survivors fits run
        have idle := sweep_idle settled
        refine ⟨count, last, run, settled, idle, ?_⟩
        exact tick_eq_ok.2 ⟨count, last, run, by rw [idle]; rfl, by rw [idle]⟩

theorem expiry_agrees_rebuilt :
    let rooted : Spell :=
      ⟨.entropy, .ofKind .zone, ⟨.increase, 5⟩, 0, "", true, true, true, [.kernelSpace]⟩
    let once : Engine.Operation := .cast [rooted]
    let turns : List (UInt64 × Turn) := [(10, .operate once), (500, .operate once),
      (20010, .operate .sweep), (20020, .rebuild {})]
    ∃ history,
      ((start {} (.ofSeed 0)).run [(10, .operate once), (500, .operate once),
        (20010, .operate .sweep), (20020, .rebuild {})] = .ok history ∧
      (∀ entry ∈ turns, ∀ laws, entry.2 ≠ .restart laws) ∧
      history.engine.ids.Distinct ∧
      ∀ effect ∈ history.engine.reality.effects,
        effect.start.toNat + effect.duration.toNat ≤ 0xFFFFFFFFFFFFFFFF) ∧
    let engine := history.engine
    let low := engine.laws.normalTimeMin
    let high := engine.laws.normalTimeMax
    (∀ effect ∈ engine.reality.effects, ∃ due : UInt64,
      due.toNat = effect.start.toNat + effect.duration.toNat ∧
      engine.timeline.pending.filter (fun entry => decide (entry.task = .expireEffect effect.id)) =
        [⟨due, .expireEffect effect.id⟩]) ∧
    ∀ now, (∀ entry ∈ turns, entry.1 ≤ now) →
      let survivors := engine.reality.effects.filter fun effect =>
        decide (now.toNat - effect.start.toNat < effect.duration.toNat)
      (engine.sweep now).2.reality.effects = survivors ∧
      (∀ otherLaws otherIds, ∃ count next,
        (ofParts otherLaws otherIds engine.reality []).tick now = .ok (count, next) ∧
        next.reality.effects = survivors) ∧
      if .normalizeTime ∈ engine.timeline.due now ∧ ¬ low ≤ high then
        engine.runDue now = .error (.emptyRange low high) ∧
        engine.tick now = .error (.emptyRange low high)
      else
        ∃ count next, engine.runDue now = .ok (count, next) ∧ next.reality.effects = survivors ∧
          next.sweep now = (0, next) ∧ engine.tick now = .ok (count, next) := by
  intro rooted once turns
  have queued : ∀ entry ∈ turns, ∀ laws, entry.2 ≠ .restart laws := by simp [turns]
  exact ⟨_, ⟨rfl, queued, by decide, by decide⟩, expiry_agrees {} (.ofSeed 0) turns _ rfl queued
    (by decide) (by decide)⟩

end History

end Spellcraft
