import Mathlib.Data.List.Forall2
import Spellcraft.Proofs.Engine.Conservation
import Spellcraft.Proofs.Engine.Expiry
import Spellcraft.Scrying

set_option autoImplicit false

namespace Spellcraft

theorem Effect.remaining_toNat (effect : Effect) (now : UInt64) :
    (effect.remaining now).toNat = effect.duration.toNat - (now.toNat - effect.start.toNat) := by
  have bound := effect.duration.toNat_lt
  rw [remaining, age, UInt64.toNat_ofNat']
  omega

namespace Scrying.EffectView

structure Shows (view : EffectView) (effect : Effect) (now : UInt64) : Prop where
  traits : (view.id, view.kind, view.anchor, view.shift, view.intensity) =
    (effect.id, effect.kind, effect.anchor.kind, effect.shift, effect.intensity)
  lasting : 0 < view.remaining
  within : view.remaining ≤ effect.duration
  ends : now.toNat + view.remaining.toNat = effect.start.toNat + effect.duration.toNat

def later (delay : UInt64) (view : EffectView) : EffectView :=
  { view with remaining := view.remaining - delay }

theorem ofEffect_shows {effect : Effect} {now : UInt64} (started : effect.start ≤ now)
    (lasting : now.toNat - effect.start.toNat < effect.duration.toNat) :
    (ofEffect now effect).Shows effect now := by
  have left := effect.remaining_toNat now
  have order := UInt64.le_iff_toNat_le.1 started
  constructor
  · rfl
  · rw [ofEffect, UInt64.lt_iff_toNat_lt, left, UInt64.toNat_zero]
    omega
  · rw [ofEffect, UInt64.le_iff_toNat_le, left]
    omega
  · rw [ofEffect, left]
    omega

end Scrying.EffectView

section Delay

variable {effect : Effect} {now delay : UInt64}

theorem Effect.lasts_iff (room : now.toNat + delay.toNat ≤ 0xFFFFFFFFFFFFFFFF)
    (started : effect.start ≤ now) :
    (now + delay).toNat - effect.start.toNat < effect.duration.toNat ↔
      delay < effect.remaining now := by
  have left := effect.remaining_toNat now
  have order := UInt64.le_iff_toNat_le.1 started
  have sum : (now + delay).toNat = now.toNat + delay.toNat := by
    rw [UInt64.toNat_add]
    omega
  rw [UInt64.lt_iff_toNat_lt, sum, left]
  omega

theorem Scrying.EffectView.ofEffect_later (room : now.toNat + delay.toNat ≤ 0xFFFFFFFFFFFFFFFF)
    (started : effect.start ≤ now) (lasts : delay < effect.remaining now) :
    ofEffect (now + delay) effect = (ofEffect now effect).later delay := by
  have order := UInt64.le_iff_toNat_le.1 started
  have sum : (now + delay).toNat = now.toNat + delay.toNat := by
    rw [UInt64.toNat_add]
    omega
  have less : effect.remaining (now + delay) = effect.remaining now - delay := by
    apply UInt64.toNat.inj
    rw [UInt64.toNat_sub_of_le _ _ (UInt64.le_of_lt lasts), Effect.remaining_toNat,
      Effect.remaining_toNat, sum]
    omega
  simp only [ofEffect, later, less]

end Delay

namespace Engine

/-- No timer is due before the time of its effect is over, and whatever a timer ends was created. An
effect may be without a timer. -/
structure Timely (engine : Engine) (horizon : UInt64) : Prop where
  timers : ∀ entry ∈ engine.timeline.pending, ∀ effect ∈ engine.reality.effects,
    entry.task = .expireEffect effect.id → entry.due = effect.deadline
  known : ∀ entry ∈ engine.timeline.pending, ∀ id,
    entry.task = .expireEffect id → engine.ids.Drawn id
  drawn : ∀ effect ∈ engine.reality.effects, engine.ids.Drawn effect.id
  started : ∀ effect ∈ engine.reality.effects, effect.start ≤ horizon

variable {engine next last : Engine} {horizon now : UInt64}

theorem Timely.less (timely : engine.Timely horizon) (ids : engine.ids.Onward next.ids)
    (effects : next.reality.effects ⊆ engine.reality.effects)
    (pending : next.timeline.pending ⊆ engine.timeline.pending) : next.Timely horizon := by
  constructor
  · intro entry waits effect active
    exact timely.timers entry (pending waits) effect (effects active)
  · intro entry waits id task
    exact (timely.known entry (pending waits) id task).later ids
  · intro effect active
    exact (timely.drawn effect (effects active)).later ids
  · intro effect active
    exact timely.started effect (effects active)

theorem Casts.mem_effects {spell : Spell} {outcome : Outcome}
    (casts : engine.Casts now spell outcome next) {effect : Effect}
    (active : effect ∈ next.reality.effects) :
    effect ∈ engine.reality.effects ∨
      ∃ plan, outcome.effect = some plan ∧
        effect = plan.begin now engine.ids.next spell.anchor := by
  rw [casts.effects] at active
  rcases List.mem_append.1 active with old | new
  · exact .inl old
  · obtain ⟨plan, begins, rfl⟩ := List.mem_map.1 new
    exact .inr ⟨plan, Option.mem_toList.1 begins, rfl⟩

theorem Casts.mem_timers {spell : Spell} {outcome : Outcome} {leaves : Bool}
    (casts : engine.Casts now spell outcome next) (fits : outcome.Fits leaves)
    {entry : PendingTask} {id : EffectId} (waits : entry ∈ next.timeline.pending)
    (task : entry.task = .expireEffect id) :
    entry ∈ engine.timeline.pending ∨
      ∃ plan, outcome.effect = some plan ∧ id = engine.ids.next ∧
        entry.due = (plan.begin now engine.ids.next spell.anchor).deadline := by
  rw [casts.timeline, (Timeline.scheduleAll_perm _ _).mem_iff] at waits
  rcases List.mem_append.1 waits with old | new
  · exact .inl old
  · rcases List.mem_append.1 new with timer | correction
    · obtain ⟨plan, begins, rfl⟩ := List.mem_map.1 timer
      cases task
      exact .inr ⟨plan, Option.mem_toList.1 begins, rfl, rfl⟩
    · obtain ⟨later, inside, rfl⟩ := List.mem_map.1 correction
      exact absurd task (fits.corrections later inside id)

theorem Timely.castOne {spell : Spell} {verdict : Verdict} (timely : engine.Timely horizon)
    (cast : engine.castOne now spell = .ok (verdict, next)) (distinct : next.ids.Distinct)
    (reading : now ≤ horizon) : next.Timely horizon := by
  obtain ⟨outcome, _, -, -, fits, casts⟩ := castOne_casts cast
  -- What was drawn before is not drawn again for the effect that begins.
  have begun {plan : EffectPlan} (begins : outcome.effect = some plan) :
      next.ids.Drawn engine.ids.next ∧
        ∀ id, engine.ids.Drawn id → id ≠ engine.ids.next := by
    have advanced : engine.ids.used < next.ids.used := by
      rw [casts.used, begins]
      exact Nat.lt_succ_self _
    constructor
    · exact ⟨engine.ids.used, advanced, by rw [casts.draw]; rfl⟩
    · intro id drawn
      exact drawn.ne_next casts.draw advanced distinct
  constructor
  · intro entry waits effect active task
    rcases casts.mem_effects active with old | ⟨plan, begins, rfl⟩
    · rcases casts.mem_timers fits waits task with before | ⟨plan, begins, own, -⟩
      · exact timely.timers entry before effect old task
      · exact absurd own ((begun begins).2 effect.id (timely.drawn effect old))
    · rcases casts.mem_timers fits waits task with before | ⟨other, also_begins, -, due⟩
      · exact absurd rfl ((begun begins).2 _ (timely.known entry before _ task))
      · rw [begins] at also_begins
        cases also_begins
        exact due
  · intro entry waits id task
    rcases casts.mem_timers fits waits task with before | ⟨plan, begins, rfl, -⟩
    · exact (timely.known entry before id task).later casts.onward.ids
    · exact (begun begins).1
  · intro effect active
    rcases casts.mem_effects active with old | ⟨plan, begins, rfl⟩
    · exact (timely.drawn effect old).later casts.onward.ids
    · exact (begun begins).1
  · intro effect active
    rcases casts.mem_effects active with old | ⟨plan, begins, rfl⟩
    · exact timely.started effect old
    · exact reading

theorem Timely.cast {spells : List Spell} {verdict : Verdict} (timely : engine.Timely horizon)
    (cast : engine.cast now spells = .ok (verdict, last)) (distinct : last.ids.Distinct)
    (reading : now ≤ horizon) : last.Timely horizon := by
  have kept (state : Engine) (spell : Spell) (verdict : Verdict) (next : Engine)
      (held : state.ids.Distinct → state.Timely horizon)
      (one : state.castOne now spell = .ok (verdict, next)) (distinct : next.ids.Distinct) :
      next.Timely horizon :=
    (held (distinct.before (castOne_onward one).ids)).castOne one distinct reading
  exact cast_keeps kept cast (fun _ => timely) distinct

theorem runDue_effects {count : Nat} (run : engine.runDue now = .ok (count, last)) :
    last.reality.effects = engine.reality.effects.filter fun effect =>
      !(engine.timeline.due now).any (·.ends effect) := by
  have fired := fireAll_effects (runDue_eq_ok.1 run).2
  exact fired

theorem Timely.runDue {count : Nat} (timely : engine.Timely horizon)
    (run : engine.runDue now = .ok (count, last)) : last.Timely horizon := by
  have kept := runDue_kept run
  apply timely.less kept.onward.ids
  · rw [runDue_effects run]
    exact List.filter_sublist.subset
  · rw [kept.timeline]
    exact List.dropWhile_subset _

theorem Timely.perform {operation : Operation} {answer : Answer} (timely : engine.Timely horizon)
    (performed : engine.perform now operation = .ok (answer, next)) (distinct : next.ids.Distinct)
    (reading : now ≤ horizon) : next.Timely horizon := by
  cases operation with
  | cast spells =>
    obtain ⟨⟨verdict, last⟩, cast, done⟩ := Fault.bind_eq_ok.1 performed
    cases done
    exact timely.cast cast distinct reading
  | runDue =>
    obtain ⟨⟨count, last⟩, run, done⟩ := Fault.bind_eq_ok.1 performed
    cases done
    exact timely.runDue run
  | sweep =>
    cases performed
    exact timely.less (.refl _) List.filter_sublist.subset (List.Subset.refl _)
  | tick =>
    obtain ⟨⟨count, last⟩, ticked, done⟩ := Fault.bind_eq_ok.1 performed
    obtain ⟨fired, middle, run, -, rfl⟩ := tick_eq_ok.1 ticked
    cases done
    exact (timely.runDue run).less (.refl _) List.filter_sublist.subset (List.Subset.refl _)
  | override focus value =>
    cases performed
    cases focus <;> exact timely.less (.refl _) (List.Subset.refl _) (List.Subset.refl _)
  | setDimensions | drain =>
    cases performed
    exact timely.less (.refl _) (List.Subset.refl _) (List.Subset.refl _)

theorem tick_lasting {count : Nat} (ticked : engine.tick now = .ok (count, last)) :
    ∀ effect ∈ last.reality.effects,
      now.toNat - effect.start.toNat < effect.duration.toNat := by
  obtain ⟨fired, middle, -, -, rfl⟩ := tick_eq_ok.1 ticked
  intro effect active
  rw [sweep_survivors] at active
  exact of_decide_eq_true (List.mem_filter.1 active).2

theorem Timely.tick_survivors {count : Nat} (timely : engine.Timely horizon)
    (fits : ∀ effect ∈ engine.reality.effects,
      effect.start.toNat + effect.duration.toNat ≤ 0xFFFFFFFFFFFFFFFF)
    (ticked : engine.tick now = .ok (count, last)) :
    last.reality.effects = engine.survivors now := by
  obtain ⟨fired, middle, run, -, rfl⟩ := tick_eq_ok.1 ticked
  rw [sweep_survivors, survivors, survivors, runDue_effects run, List.filter_filter]
  apply List.filter_congr
  intro effect active
  by_cases lasting : now.toNat - effect.start.toNat < effect.duration.toNat
  · -- A timer that is due would be due at the deadline, which is still to come.
    have untimed : (engine.timeline.due now).any (·.ends effect) = false := by
      rw [List.any_eq_false]
      intro task due ended
      obtain ⟨entry, late, rfl⟩ := List.mem_map.1 due
      have waits := (List.takeWhile_sublist _).subset late
      have deadline := timely.timers entry waits effect active (of_decide_eq_true ended)
      have passed := Timeline.due_of_mem_elapsed late
      rw [deadline, UInt64.le_iff_toNat_le, Effect.deadline_toNat (fits effect active)] at passed
      omega
    simp [untimed]
  · simp [lasting]

theorem effects_shown (started : ∀ effect ∈ engine.reality.effects, effect.start ≤ now)
    (lasting : ∀ effect ∈ engine.reality.effects,
      now.toNat - effect.start.toNat < effect.duration.toNat) :
    List.Forall₂ (fun view effect => view.Shows effect now) (Scrying.effects engine.reality now)
      engine.reality.effects := by
  rw [Scrying.effects, List.forall₂_map_left_iff, List.forall₂_same]
  intro effect active
  exact Scrying.EffectView.ofEffect_shows (started effect active) (lasting effect active)

theorem Timely.tick_shown {count : Nat} {delay : UInt64} (timely : engine.Timely now)
    (fits : ∀ effect ∈ engine.reality.effects,
      effect.start.toNat + effect.duration.toNat ≤ 0xFFFFFFFFFFFFFFFF)
    (room : now.toNat + delay.toNat ≤ 0xFFFFFFFFFFFFFFFF)
    (ticked : engine.tick (now + delay) = .ok (count, next)) :
    next.reality.effects =
        engine.reality.effects.filter (fun effect => decide (delay < effect.remaining now)) ∧
      Scrying.effects next.reality (now + delay) =
        ((Scrying.effects engine.reality now).filter fun view =>
          decide (delay < view.remaining)).map (·.later delay) := by
  have left : next.reality.effects =
      engine.reality.effects.filter (fun effect => decide (delay < effect.remaining now)) := by
    rw [timely.tick_survivors fits ticked]
    apply List.filter_congr
    intro effect active
    exact decide_eq_decide.2 (Effect.lasts_iff room (timely.started effect active))
  refine ⟨left, ?_⟩
  rw [Scrying.effects, left, Scrying.effects, List.filter_map, List.map_map]
  apply List.map_congr_left
  intro effect kept
  obtain ⟨active, lasts⟩ := List.mem_filter.1 kept
  exact Scrying.EffectView.ofEffect_later room (timely.started effect active)
    (of_decide_eq_true lasts)

end Engine

namespace History

open Engine

variable {history next : History} {horizon now : UInt64} {turn : Turn}

theorem step_timely (timely : history.engine.Timely horizon)
    (stepped : history.step now turn = .ok next) (distinct : next.engine.ids.Distinct)
    (reading : now ≤ horizon) : next.engine.Timely horizon := by
  cases turn with
  | operate operation =>
    obtain ⟨⟨answer, engine⟩, performed, done⟩ := Fault.bind_eq_ok.1 stepped
    cases done
    exact timely.perform performed distinct reading
  | rebuild laws =>
    cases stepped
    have same : (history.replace laws history.engine.timeline.pending).engine.timeline =
        history.engine.timeline := Timeline.ofList_pending _
    refine timely.less (.refl _) (List.Subset.refl _) ?_
    rw [same]
    exact List.Subset.refl _
  | restart laws =>
    cases stepped
    exact timely.less (.refl _) (List.Subset.refl _) (List.nil_subset _)

theorem run_timely {turns : List (UInt64 × Turn)} {start last : History}
    (ran : start.run turns = .ok last) (timely : start.engine.Timely horizon)
    (distinct : last.engine.ids.Distinct) (readings : ∀ entry ∈ turns, entry.1 ≤ horizon) :
    last.engine.Timely horizon := by
  have kept (entry : UInt64 × Turn) (member : entry ∈ turns) (history next : History)
      (held : history.engine.ids.Distinct → history.engine.Timely horizon)
      (stepped : history.step entry.1 entry.2 = .ok next) (distinct : next.engine.ids.Distinct) :
      next.engine.Timely horizon :=
    step_timely (held (distinct.before (step_onward stepped).1)) stepped distinct
      (readings entry member)
  exact Fault.foldlM_keeps kept ran (fun _ => timely) distinct

theorem start_timely (laws : Laws) (ids : IdSupply) (horizon : UInt64) :
    (start laws ids).engine.Timely horizon := by
  constructor
  · intro entry waits
    cases waits
  · intro entry waits
    cases waits
  · intro effect active
    cases active
  · intro effect active
    cases active

-- The last turn is a tick, so that only effects with time left are at work after it.
theorem run_lasting {turns : List (UInt64 × Turn)} {start last : History}
    (ran : start.run (turns ++ [(now, .operate .tick)]) = .ok last) :
    ∀ effect ∈ last.engine.reality.effects,
      now.toNat - effect.start.toNat < effect.duration.toNat := by
  rw [run, List.foldlM_append] at ran
  obtain ⟨before, -, ended⟩ := Fault.bind_eq_ok.1 ran
  obtain ⟨after, stepped, done⟩ := Fault.bind_eq_ok.1 ended
  cases done
  obtain ⟨⟨answer, engine⟩, performed, finished⟩ := Fault.bind_eq_ok.1 stepped
  cases finished
  obtain ⟨⟨count, last⟩, ticked, told⟩ := Fault.bind_eq_ok.1 performed
  cases told
  exact tick_lasting ticked

theorem remaining_foretells (laws : Laws) (ids : IdSupply) (turns : List (UInt64 × Turn))
    (now : UInt64) (history : History)
    (ran : (start laws ids).run (turns ++ [(now, .operate .tick)]) = .ok history)
    (readings : ∀ entry ∈ turns, entry.1 ≤ now) (distinct : history.engine.ids.Distinct)
    (fits : ∀ effect ∈ history.engine.reality.effects,
      effect.start.toNat + effect.duration.toNat ≤ 0xFFFFFFFFFFFFFFFF) :
    let engine := history.engine
    let low := engine.laws.normalTimeMin
    let high := engine.laws.normalTimeMax
    let shown := Scrying.effects engine.reality now
    engine.reality.effects.Sublist (history.castings.flatMap Casting.created) ∧
    (shown.map Scrying.EffectView.id).Nodup ∧
    List.Forall₂ (fun view effect => view.Shows effect now) shown engine.reality.effects ∧
    ∀ delay : UInt64, now.toNat + delay.toNat ≤ 0xFFFFFFFFFFFFFFFF →
      if .normalizeTime ∈ engine.timeline.due (now + delay) ∧ ¬ low ≤ high then
        engine.tick (now + delay) = .error (.emptyRange low high)
      else
        ∃ count next, engine.tick (now + delay) = .ok (count, next) ∧
          next.reality.effects =
            engine.reality.effects.filter (fun effect => decide (delay < effect.remaining now)) ∧
          Scrying.effects next.reality (now + delay) =
            (shown.filter fun view => decide (delay < view.remaining)).map (·.later delay) := by
  intro engine low high shown
  have all_readings : ∀ entry ∈ turns ++ [(now, .operate .tick)], entry.1 ≤ now := by
    intro entry member
    rcases List.mem_append.1 member with early | last
    · exact readings entry early
    · rw [List.mem_singleton.1 last]
      exact UInt64.le_refl _
  have timely := run_timely ran (start_timely laws ids now) distinct all_readings
  have accounts := (run_conserved ran (start_conserved laws ids) distinct).accounts
  have lasting := run_lasting ran
  refine ⟨accounts.active, ?_, ?_, fun delay room => ?_⟩
  · have same : shown.map Scrying.EffectView.id = engine.reality.effects.map Effect.id :=
      List.map_map
    rw [same]
    exact accounts.distinct.sublist (accounts.active.map _)
  · exact effects_shown timely.started lasting
  · split
    next stuck => exact tick_fault stuck.1 stuck.2
    next free =>
      have able : .normalizeTime ∈ engine.timeline.due (now + delay) → low ≤ high := by
        intro due
        by_contra empty
        exact free ⟨due, empty⟩
      obtain ⟨count, next, ticked⟩ : ∃ count next,
          engine.tick (now + delay) = .ok (count, next) := tick_ok able
      exact ⟨count, next, ticked, timely.tick_shown fits room ticked⟩

-- The tasks were not taken up at 600, so the tick takes the first effect away without a timer.
theorem remaining_foretells_untimed :
    let rooted : Spell :=
      ⟨.entropy, .ofKind .zone, ⟨.increase, 5⟩, 0, "", true, true, true, [.kernelSpace]⟩
    let once : Engine.Operation := .cast [rooted]
    let turns : List (UInt64 × Turn) := [(10, .operate once), (500, .operate once),
      (600, .restart {}), (700, .operate once)]
    ∃ history,
      ((start {} (.ofSeed 0)).run (turns ++ [(20010, .operate .tick)]) = .ok history ∧
        (∀ entry ∈ turns, entry.1 ≤ 20010) ∧ history.engine.ids.Distinct ∧
        ∀ effect ∈ history.engine.reality.effects,
          effect.start.toNat + effect.duration.toNat ≤ 0xFFFFFFFFFFFFFFFF) ∧
      let engine := history.engine
      let low := engine.laws.normalTimeMin
      let high := engine.laws.normalTimeMax
      let shown := Scrying.effects engine.reality 20010
      shown.map Scrying.EffectView.remaining = [490, 690] ∧
      engine.reality.effects.Sublist (history.castings.flatMap Casting.created) ∧
      (shown.map Scrying.EffectView.id).Nodup ∧
      List.Forall₂ (fun view effect => view.Shows effect 20010) shown engine.reality.effects ∧
      ∀ delay : UInt64, (20010 : UInt64).toNat + delay.toNat ≤ 0xFFFFFFFFFFFFFFFF →
        if .normalizeTime ∈ engine.timeline.due (20010 + delay) ∧ ¬ low ≤ high then
          engine.tick (20010 + delay) = .error (.emptyRange low high)
        else
          ∃ count next, engine.tick (20010 + delay) = .ok (count, next) ∧
            next.reality.effects =
              engine.reality.effects.filter (fun effect =>
                decide (delay < effect.remaining 20010)) ∧
            Scrying.effects next.reality (20010 + delay) =
              (shown.filter fun view => decide (delay < view.remaining)).map (·.later delay) := by
  intro rooted once turns
  have readings : ∀ entry ∈ turns, entry.1 ≤ 20010 := by decide
  exact ⟨_, ⟨rfl, readings, by decide, by decide⟩, by decide,
    remaining_foretells {} (.ofSeed 0) turns 20010 _ rfl readings (by decide) (by decide)⟩

end History

end Spellcraft
