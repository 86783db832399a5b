import Spellcraft.Proofs.Engine.Firing

/-!
How often an engine is pumped does not matter. Ticks at ascending readings of the clock leave the
reality, the timeline and the corrections of a single tick at the last reading: the batches of due
tasks follow one another in firing order, and an effect that an early sweep takes away is one that
the last sweep would take away.
-/

set_option autoImplicit false

namespace Spellcraft

def Reality.bare (reality : Reality) : Reality :=
  { reality with effects := [] }

theorem Reality.ext_bare {left right : Reality} (bare : left.bare = right.bare)
    (effects : left.effects = right.effects) : left = right := by
  cases left
  cases right
  simp only [Reality.bare, Reality.mk.injEq, true_and] at bare effects ⊢
  simpa [effects] using bare

namespace Engine

def corrections (engine : Engine) : List Event :=
  engine.events.filter Event.isCorrection

/-- Two engines that differ only in their tasks, in effects whose time is over by a reading, and in
events that are no corrections. -/
structure AgreesAt (now : UInt64) (left right : Engine) : Prop where
  laws : left.laws = right.laws
  bare : left.reality.bare = right.reality.bare
  lasting : (left.reality.effects.filter fun effect => !effect.isExpired now) =
    right.reality.effects.filter fun effect => !effect.isExpired now
  corrections : left.corrections = right.corrections

namespace AgreesAt

theorem trans {now : UInt64} {first second third : Engine} (left : AgreesAt now first second)
    (right : AgreesAt now second third) : AgreesAt now first third :=
  ⟨left.laws.trans right.laws, left.bare.trans right.bare, left.lasting.trans right.lasting,
    left.corrections.trans right.corrections⟩

theorem fire {now : UInt64} {left right next : Engine} {task : Task}
    (agree : AgreesAt now left right) (fired : left.fire task = .ok next) :
    ∃ other, right.fire task = .ok other ∧ AgreesAt now next other := by
  cases task with
  | expireEffect id =>
    rw [fire_expireEffect] at fired
    cases fired
    refine ⟨_, fire_expireEffect right id, agree.laws, agree.bare, ?_, ?_⟩
    -- Taking away the effects of one identifier and leaving out those that are over commute.
    · simp only [List.filter_filter, Bool.and_comm]
      rw [← List.filter_filter, agree.lasting, List.filter_filter]
    · have silent (present : Bool) :
          (if present then [Event.effectExpired id] else []).filter Event.isCorrection = [] := by
        cases present <;> rfl
      simpa only [Engine.corrections, List.filter_append, silent, List.append_nil]
        using agree.corrections
  | halveProbability =>
    have before : left.reality.probability = right.reality.probability := by
      simpa [Reality.bare] using congrArg Reality.probability agree.bare
    cases fired
    refine ⟨_, rfl, agree.laws, ?_, agree.lasting, ?_⟩
    · simpa [log, Reality.bare, before] using agree.bare
    · simpa [Engine.corrections, log, before] using agree.corrections
  | normalizeTime =>
    have before : left.reality.timeSpeed = right.reality.timeSpeed := by
      simpa [Reality.bare] using congrArg Reality.timeSpeed agree.bare
    obtain ⟨timeSpeed, held, changed⟩ := Fault.bind_eq_ok.1 fired
    rw [agree.laws, before] at held
    simp only [Engine.fire, held, Fault.ok_bind]
    by_cases moved : (timeSpeed != right.reality.timeSpeed) = true
    · simp only [before, moved, if_true] at changed ⊢
      cases changed
      refine ⟨_, rfl, agree.laws, ?_, agree.lasting, ?_⟩
      · simpa [log, Reality.bare, before] using agree.bare
      · simpa [Engine.corrections, log, before] using agree.corrections
    · simp only [before, moved] at changed ⊢
      cases changed
      exact ⟨right, rfl, agree⟩

theorem fireAll {now : UInt64} {tasks : List Task} {left right last : Engine}
    (agree : AgreesAt now left right) (fired : tasks.foldlM Engine.fire left = .ok last) :
    ∃ other, tasks.foldlM Engine.fire right = .ok other ∧ AgreesAt now last other :=
  Fault.foldlM_lift (fun _ _ _ _ agree fired => agree.fire fired) agree fired

theorem forward {now : UInt64} {left right : Engine} (agree : AgreesAt now left right)
    (reading : UInt64) : AgreesAt now (left.forward reading) right :=
  ⟨agree.laws, agree.bare, agree.lasting, agree.corrections⟩

end AgreesAt

theorem sweep_corrections (engine : Engine) (now : UInt64) :
    (engine.sweep now).2.corrections = engine.corrections := by
  have silent (expired : List Effect) :
      (expired.map fun effect => Event.effectExpired effect.id).filter Event.isCorrection = [] := by
    simp [List.filter_eq_nil_iff, Event.isCorrection]
  simp [corrections, sweep, silent]

-- What a sweep at an earlier reading takes away, the last one would take away as well.
theorem sweep_agrees {earlier now : UInt64} (before : earlier ≤ now) (engine : Engine) :
    AgreesAt now (engine.sweep earlier).2 engine := by
  refine ⟨rfl, rfl, ?_, sweep_corrections engine earlier⟩
  simp only [sweep, List.filter_filter]
  refine List.filter_congr fun effect _ => ?_
  by_cases expired : effect.isExpired earlier = true
  · simp [Effect.isExpired_mono before expired]
  · simp [expired]

theorem AgreesAt.swept {now : UInt64} {left right : Engine} (agree : AgreesAt now left right) :
    (left.sweep now).2.reality = (right.sweep now).2.reality :=
  Reality.ext_bare agree.bare agree.lasting

structure SameCourse (left right : Engine) : Prop where
  reality : left.reality = right.reality
  timeline : left.timeline = right.timeline
  corrections : left.corrections = right.corrections

theorem tick_tick {engine middle last once : Engine} {earlier later : UInt64}
    {first second count : Nat} (before : earlier ≤ later)
    (ticked : engine.tick earlier = .ok (first, middle))
    (again : middle.tick later = .ok (second, last))
    (single : engine.tick later = .ok (count, once)) : SameCourse last once := by
  obtain ⟨_, early, run, -, rfl⟩ := tick_eq_ok.1 ticked
  obtain ⟨_, late, rerun, -, rfl⟩ := tick_eq_ok.1 again
  obtain ⟨_, all, whole, -, rfl⟩ := tick_eq_ok.1 single
  have left_over : (early.sweep earlier).2.timeline = engine.timeline.after earlier :=
    (runDue_kept run).timeline
  have late_timeline : late.timeline = engine.timeline.after later := by
    rw [(runDue_kept rerun).timeline, ← Timeline.after_after before, ← left_over]
    rfl
  have start : AgreesAt later (engine.forward earlier) (engine.forward later) :=
    ⟨rfl, rfl, rfl, rfl⟩
  obtain ⟨early', fired, agree⟩ := start.fireAll (runDue_eq_ok.1 run).2
  have swept := (sweep_agrees before early).trans agree
  obtain ⟨late', refired, agreed⟩ := (swept.forward later).fireAll (runDue_eq_ok.1 rerun).2
  -- The two batches are the batch of the single tick.
  have batch : all = late' := by
    have fired_all := (runDue_eq_ok.1 whole).2
    rw [left_over] at refired
    rw [Timeline.due_append before, List.foldlM_append, fired, Fault.ok_bind, refired] at fired_all
    exact (Except.ok.inj fired_all).symm
  subst batch
  refine ⟨agreed.swept, ?_, ?_⟩
  · exact late_timeline.trans (runDue_kept whole).timeline.symm
  · rw [sweep_corrections, sweep_corrections, agreed.corrections]

def ticks : List UInt64 → Engine → Except Fault Engine
  | [], engine => .ok engine
  | now :: later, engine => do
    let (_, next) ← engine.tick now
    ticks later next

theorem SameCourse.trans {first second third : Engine} (left : SameCourse first second)
    (right : SameCourse second third) : SameCourse first third :=
  ⟨left.reality.trans right.reality, left.timeline.trans right.timeline,
    left.corrections.trans right.corrections⟩

theorem tick_timeRange {engine next : Engine} {now : UInt64} {count : Nat}
    (ticked : engine.tick now = .ok (count, next))
    (timeRange : engine.laws.normalTimeMin ≤ engine.laws.normalTimeMax) :
    next.laws.normalTimeMin ≤ next.laws.normalTimeMax := by
  rwa [(tick_kept ticked).laws]

theorem ticks_sameCourse {engine once : Engine} {first last : UInt64} {later : List UInt64}
    {count : Nat} (timeRange : engine.laws.normalTimeMin ≤ engine.laws.normalTimeMax)
    (ascending : (first :: later).Pairwise (· ≤ ·))
    (ends : (first :: later).getLast? = some last)
    (single : engine.tick last = .ok (count, once)) :
    ∃ many, engine.ticks (first :: later) = .ok many ∧ SameCourse many once := by
  induction later generalizing engine first count once with
  | nil =>
    obtain rfl : first = last := by simpa using ends
    exact ⟨once, by simp [ticks, single], rfl, rfl, rfl⟩
  | cons second rest ih =>
    obtain ⟨before, others⟩ := List.pairwise_cons.1 ascending
    have before_last : first ≤ last := by
      refine before last (List.mem_of_getLast? ?_)
      simpa using ends
    obtain ⟨fired, next, ticked⟩ : ∃ fired next, engine.tick first = .ok (fired, next) :=
      tick_ok fun _ => timeRange
    have range := tick_timeRange ticked timeRange
    obtain ⟨recount, rest_once, again⟩ : ∃ recount once, next.tick last = .ok (recount, once) :=
      tick_ok fun _ => range
    obtain ⟨many, run, same⟩ := ih range others (by simpa using ends) again
    refine ⟨many, ?_, same.trans (tick_tick before_last ticked again single)⟩
    rw [ticks, ticked, Fault.ok_bind]
    exact run

theorem ticks_events {readings : List UInt64} {engine last : Engine}
    (run : engine.ticks readings = .ok last) : engine.events <+: last.events := by
  induction readings generalizing engine with
  | nil =>
    cases run
    exact List.prefix_rfl
  | cons now later ih =>
    obtain ⟨⟨count, next⟩, ticked, rest⟩ := Fault.bind_eq_ok.1 run
    exact (tick_kept ticked).events.trans (ih rest)

theorem ticks_coalesce (engine : Engine)
    (timeRange : engine.laws.normalTimeMin ≤ engine.laws.normalTimeMax) (readings : List UInt64)
    (last : UInt64) (ascending : readings.Pairwise (· ≤ ·)) (ends : readings.getLast? = some last) :
    ∃ many count once manyEvents onceEvents,
      engine.ticks readings = .ok many ∧ engine.tick last = .ok (count, once) ∧
      many.reality = once.reality ∧ many.timeline.pending = once.timeline.pending ∧
      many.events = engine.events ++ manyEvents ∧ once.events = engine.events ++ onceEvents ∧
      manyEvents.filter Event.isCorrection = onceEvents.filter Event.isCorrection := by
  cases readings with
  | nil => simp at ends
  | cons first later =>
    obtain ⟨count, once, single⟩ : ∃ count once, engine.tick last = .ok (count, once) :=
      tick_ok fun _ => timeRange
    obtain ⟨many, run, same⟩ := ticks_sameCourse timeRange ascending ends single
    obtain ⟨manyEvents, many_log⟩ := ticks_events run
    obtain ⟨onceEvents, once_log⟩ := (tick_kept single).events
    refine ⟨many, count, once, manyEvents, onceEvents, run, single, same.reality,
      congrArg Timeline.pending same.timeline, many_log.symm, once_log.symm, ?_⟩
    have corrections := same.corrections
    rw [Engine.corrections, Engine.corrections, ← many_log, ← once_log, List.filter_append,
      List.filter_append] at corrections
    exact List.append_cancel_left corrections

theorem ticks_coalesce_corrections :
    let reality : Reality := { timeSpeed := 3.0, probability := 40.0 }
    let engine := ofParts {} (.ofSeed 0) reality [⟨5, .halveProbability⟩, ⟨15, .normalizeTime⟩]
    (engine.laws.normalTimeMin ≤ engine.laws.normalTimeMax ∧
      [3, 10, 10, 20].Pairwise (fun earlier later : UInt64 => earlier ≤ later) ∧
      [3, 10, 10, 20].getLast? = some (20 : UInt64)) ∧
    ∃ many count once manyEvents onceEvents,
      engine.ticks [3, 10, 10, 20] = .ok many ∧ engine.tick 20 = .ok (count, once) ∧
      many.reality = once.reality ∧ many.timeline.pending = once.timeline.pending ∧
      many.events = engine.events ++ manyEvents ∧ once.events = engine.events ++ onceEvents ∧
      manyEvents.filter Event.isCorrection = onceEvents.filter Event.isCorrection :=
  ⟨⟨by decide, by decide, rfl⟩,
    ticks_coalesce _ (by decide) [3, 10, 10, 20] 20 (by decide) rfl⟩

end Engine

end Spellcraft
