import Spellcraft.Proofs.Engine.Correction

set_option autoImplicit false

namespace Spellcraft

def PendingTask.corrects (focus : Focus) (entry : PendingTask) : Bool :=
  entry.task.corrects focus

namespace Reality

variable {laws : Laws} {focus : Focus} {shift : Int} {left right : Reality}

theorem castPlain_congr (same : left.get focus = right.get focus) :
    (castPlain laws focus shift left).1 = (castPlain laws focus shift right).1 ∧
      (castPlain laws focus shift left).2.get focus =
        (castPlain laws focus shift right).2.get focus := by
  unfold castPlain
  split
  · exact ⟨rfl, same⟩
  · cases focus with
    | energy =>
      have same : left.energy = right.energy := same
      simp only [castEnergy, same]
      split
      · exact ⟨rfl, same⟩
      · exact ⟨rfl, rfl⟩
    | probability =>
      have same : left.probability = right.probability := same
      simp only [castProbability, same, true_and]
      rfl
    | entropy =>
      have same : left.entropy = right.entropy := same
      simp only [castEntropy, same]
      split
      · exact ⟨rfl, same⟩
      · split
        · exact ⟨rfl, same⟩
        · exact ⟨rfl, rfl⟩
    | time =>
      simp only [castTime]
      split
      · exact ⟨rfl, same⟩
      · split
        · exact ⟨rfl, same⟩
        · exact ⟨rfl, rfl⟩

theorem set_get (reality : Reality) (focus other : Focus) (value : Float) :
    (reality.set focus value).get other = if other = focus then value else reality.get other := by
  cases focus <;> cases other <;> rfl

theorem get_aimed (reality : Reality) (aim : Option Focus) (focus : Focus) :
    ({ reality with lastFocus := aim } : Reality).get focus = reality.get focus := by
  cases focus <;> rfl

theorem castPlain_spec (laws : Laws) (focus : Focus) (shift : Int) (reality : Reality) :
    (∀ other, other ≠ focus →
        (castPlain laws focus shift reality).2.get other = reality.get other) ∧
      ∀ later ∈ (castPlain laws focus shift reality).1.deferred,
        later.2.corrects focus = true := by
  cases cast : castPlain laws focus shift reality with
  | mk outcome next =>
    rcases castPlain_written cast with ⟨-, none_deferred, rfl⟩ | ⟨-, written⟩
    · simp [none_deferred]
    · cases focus with
      | energy =>
        obtain ⟨-, none_deferred, rfl⟩ := written
        exact ⟨fun other apart => (set_get reality .energy other _).trans (if_neg apart),
          by simp [none_deferred]⟩
      | probability =>
        obtain ⟨deferred, rfl⟩ := written
        refine ⟨fun other apart => (set_get reality .probability other _).trans (if_neg apart), ?_⟩
        split at deferred
        · simp [deferred, Task.corrects]
        · simp [deferred]
      | entropy =>
        obtain ⟨-, -, none_deferred, rfl⟩ := written
        exact ⟨fun other apart => (set_get reality .entropy other _).trans (if_neg apart),
          by simp [none_deferred]⟩
      | time =>
        obtain ⟨-, -, deferred, rfl⟩ := written
        exact ⟨fun other apart => (set_get reality .time other _).trans (if_neg apart),
          by simp [deferred, Task.corrects]⟩

end Reality

theorem Task.corrects_eq {task : Task} {focus other : Focus} (own : task.corrects focus = true)
    (apart : other ≠ focus) : task.corrects other = false := by
  cases task with
  | expireEffect id => rfl
  | halveProbability | normalizeTime =>
    obtain rfl := of_decide_eq_true own
    exact decide_eq_false apart

def Outcome.corrections (outcome : Outcome) (now : UInt64) (focus : Focus) : List PendingTask :=
  (outcome.deferred.filter fun later => later.2.corrects focus).map fun (delay, task) =>
    ⟨Number.capped64 (now.toNat + delay.toNat), task⟩

-- The end of an effect corrects nothing, so that it does not matter which effect has been begun.
theorem Outcome.tasks_corrects (outcome : Outcome) (now : UInt64) (id : EffectId) (focus : Focus) :
    (outcome.tasks now id).filter (PendingTask.corrects focus) = outcome.corrections now focus := by
  rw [Outcome.filter_tasks fun _ _ => rfl, List.filter_map]
  rfl

namespace Engine

variable {focus : Focus} {engine left right next : Engine} {now : UInt64} {operation : Operation}

def waiting (focus : Focus) (engine : Engine) : Timeline :=
  engine.timeline.restrict (PendingTask.corrects focus)

def Operation.isSimple : Operation → Bool
  | .cast [spell] => !spell.isPrivileged
  | .cast _ => false
  | .runDue | .sweep | .tick | .override .. | .setDimensions _ | .drain => true

/-- Whether an operation is left in when those aimed at other parameters are deleted. -/
def Operation.concerns (focus : Focus) : Operation → Bool
  | .cast spells => spells.all fun spell => decide (spell.focus = focus)
  | .override other _ => decide (other = focus)
  | .runDue | .sweep | .tick | .setDimensions _ | .drain => true

theorem Operation.isSimple_cast {spells : List Spell}
    (simple : (Operation.cast spells).isSimple = true) :
    ∃ spell, spells = [spell] ∧ spell.isPrivileged = false := by
  match spells, simple with
  | [spell], simple => exact ⟨spell, rfl, by simpa [isSimple] using simple⟩

def Answer.verdict? : Answer → Option Verdict
  | .verdict told => some told
  | .count _ | .held _ | .drained _ | .done => none

def Operation.told (now : UInt64) (engine : Engine) (operation : Operation) (answer : Answer) :
    List Verdict :=
  (operation.attempts now engine).map Attempt.verdict ++ answer.verdict?.toList

structure Sighting where
  reading : UInt64
  operation : Operation
  told : List Verdict
  value : Float
  waiting : List PendingTask
deriving DecidableEq

def watch (focus : Focus) : List (UInt64 × Operation) → Engine → Except Fault (List Sighting)
  | [], _ => .ok []
  | (now, operation) :: later, engine => do
    let (answer, next) ← engine.perform now operation
    let seen ← watch focus later next
    let told := operation.told now engine answer
    return ⟨now, operation, told, next.reality.get focus, (next.waiting focus).pending⟩ :: seen

structure Alike (focus : Focus) (left right : Engine) : Prop where
  laws : left.laws = right.laws
  value : left.reality.get focus = right.reality.get focus
  waiting : left.waiting focus = right.waiting focus

theorem Alike.refl (focus : Focus) (engine : Engine) : engine.Alike focus engine :=
  ⟨rfl, rfl, rfl⟩

theorem Alike.trans {middle : Engine} (first : left.Alike focus middle)
    (second : middle.Alike focus right) : left.Alike focus right :=
  ⟨first.laws.trans second.laws, first.value.trans second.value,
    first.waiting.trans second.waiting⟩

theorem due_corrects (focus : Focus) (engine : Engine) (now : UInt64) :
    (engine.timeline.due now).countP (·.corrects focus) =
      ((engine.waiting focus).due now).length := by
  rw [Timeline.due_eq_elapsed, Timeline.due_eq_elapsed, Timeline.elapsed_eq_filter,
    Timeline.elapsed_eq_filter, waiting, Timeline.restrict_pending, List.countP_map,
    List.countP_filter, List.length_map, List.filter_filter, ← List.countP_eq_length_filter]
  simp only [Bool.and_comm]
  rfl

theorem runDue_alike {count other : Nat} {last : Engine}
    (range : left.laws.normalTimeMin ≤ left.laws.normalTimeMax) (alike : left.Alike focus right)
    (run : left.runDue now = .ok (count, next)) (beside : right.runDue now = .ok (other, last)) :
    next.Alike focus last := by
  have kept := runDue_kept run
  have also_kept := runDue_kept beside
  refine ⟨kept.laws.trans (alike.laws.trans also_kept.laws.symm), ?_, ?_⟩
  · rw [runDue_get range run, runDue_get (alike.laws ▸ range) beside, due_corrects, due_corrects,
      alike.laws, alike.value, alike.waiting]
  · rw [waiting, waiting, kept.timeline, also_kept.timeline]
    exact (Timeline.restrict_after ..).trans
      ((congrArg (Timeline.after · now) alike.waiting).trans (Timeline.restrict_after ..).symm)

theorem tick_alike {count other : Nat} {last : Engine}
    (range : left.laws.normalTimeMin ≤ left.laws.normalTimeMax) (alike : left.Alike focus right)
    (ticked : left.tick now = .ok (count, next)) (beside : right.tick now = .ok (other, last)) :
    next.Alike focus last := by
  obtain ⟨_, middle, run, -, rfl⟩ := tick_eq_ok.1 ticked
  obtain ⟨_, center, also_run, -, rfl⟩ := tick_eq_ok.1 beside
  obtain ⟨laws, value, waiting⟩ := runDue_alike range alike run also_run
  exact ⟨laws, value, waiting⟩

theorem castOne_plain {spell : Spell} (plain : spell.isPrivileged = false) (now : UInt64)
    (engine : Engine) :
    ∃ outcome reality next,
      Reality.castPlain engine.laws spell.focus spell.shift.signed
        { engine.reality with lastFocus := some spell.focus } = (outcome, reality) ∧
      engine.castOne now spell = .ok (outcome.verdict, next) ∧ next.laws = engine.laws ∧
      next.reality.get = reality.get ∧
      ∀ focus, next.waiting focus =
        (engine.waiting focus).scheduleAll (outcome.corrections now focus) := by
  have decided : engine.reality.cast engine.laws spell =
      .ok (Reality.castPlain engine.laws spell.focus spell.shift.signed
        { engine.reality with lastFocus := some spell.focus }) := by
    simp [Reality.cast, plain]
  obtain ⟨verdict, next, cast⟩ :
      ∃ verdict next, engine.castOne now spell = .ok (verdict, next) := by
    simp only [castOne, decided, Fault.ok_bind]
    split
    · exact ⟨_, _, rfl⟩
    · exact ⟨_, _, rfl⟩
  obtain ⟨outcome, reality, told, rfl, same⟩ := castOne_parameters cast
  obtain ⟨_, _, also_told, -, -, casts⟩ := castOne_casts cast
  cases told.symm.trans also_told
  refine ⟨outcome, reality, next, Except.ok.inj (decided.symm.trans told), cast, casts.laws,
    same.symm, fun focus => ?_⟩
  rw [waiting, casts.timeline, Timeline.restrict_scheduleAll, Outcome.tasks_corrects]
  rfl

theorem castOne_alike {spell : Spell} (plain : spell.isPrivileged = false) (now : UInt64)
    (alike : left.Alike spell.focus right) :
    ∃ verdict next last, left.castOne now spell = .ok (verdict, next) ∧
      right.castOne now spell = .ok (verdict, last) ∧ next.Alike spell.focus last := by
  obtain ⟨outcome, reality, next, decided, cast, laws, value, waits⟩ :=
    castOne_plain plain now left
  obtain ⟨other, world, last, beside, also_cast, also_laws, also_value, also_waits⟩ :=
    castOne_plain plain now right
  have aimed_value :
      ({ left.reality with lastFocus := some spell.focus } : Reality).get spell.focus =
        ({ right.reality with lastFocus := some spell.focus } : Reality).get spell.focus :=
    (Reality.get_aimed ..).trans (alike.value.trans (Reality.get_aimed ..).symm)
  rw [alike.laws] at decided
  have same := @Reality.castPlain_congr right.laws _ spell.shift.signed _ _ aimed_value
  rw [decided, beside] at same
  obtain ⟨rfl, same_value⟩ := same
  refine ⟨_, next, last, cast, also_cast, laws.trans (alike.laws.trans also_laws.symm), ?_, ?_⟩
  · rw [value, also_value, same_value]
  · rw [waits, also_waits, alike.waiting]

theorem castOne_apart {spell : Spell} (plain : spell.isPrivileged = false)
    (apart : spell.focus ≠ focus) (now : UInt64) (engine : Engine) :
    ∃ verdict next, engine.castOne now spell = .ok (verdict, next) ∧ next.Alike focus engine := by
  obtain ⟨outcome, reality, next, decided, cast, laws, value, waits⟩ :=
    castOne_plain plain now engine
  obtain ⟨others_kept, own⟩ := Reality.castPlain_spec engine.laws spell.focus spell.shift.signed
    { engine.reality with lastFocus := some spell.focus }
  rw [decided] at others_kept own
  have no_corrections : outcome.corrections now focus = [] := by
    rw [Outcome.corrections, List.map_eq_nil_iff, List.filter_eq_nil_iff]
    intro later member
    simp [Task.corrects_eq (own later member) apart.symm]
  refine ⟨_, next, cast, laws, ?_, ?_⟩
  · rw [value, others_kept focus apart.symm]
    exact Reality.get_aimed ..
  · rw [waits, no_corrections, Timeline.scheduleAll_nil]

theorem perform_cast_one {spell : Spell} {verdict : Verdict}
    (cast : engine.castOne now spell = .ok (verdict, next)) :
    engine.perform now (.cast [spell]) =
        .ok (.verdict (if verdict.success then .accepted .allCast else verdict), next) ∧
      (Operation.cast [spell]).attempts now engine =
        [⟨engine.laws, now, spell, verdict, next.reality⟩] := by
  constructor
  · simp only [perform, Engine.cast, cast, Fault.ok_bind]
    split <;> rfl
  · simp only [Operation.attempts, attempts, cast]
    split <;> rfl

theorem perform_alike (range : left.laws.normalTimeMin ≤ left.laws.normalTimeMax)
    (simple : operation.isSimple = true) (concerns : operation.concerns focus = true) (now : UInt64)
    (alike : left.Alike focus right) :
    ∃ answer other next last, left.perform now operation = .ok (answer, next) ∧
      right.perform now operation = .ok (other, last) ∧
      operation.told now left answer = operation.told now right other ∧
      next.Alike focus last := by
  cases operation with
  | cast spells =>
    obtain ⟨spell, rfl, plain⟩ := Operation.isSimple_cast simple
    obtain rfl : spell.focus = focus := by simpa [Operation.concerns] using concerns
    obtain ⟨verdict, next, last, cast, beside, still⟩ := castOne_alike plain now alike
    obtain ⟨performed, attempt⟩ := perform_cast_one cast
    obtain ⟨also_performed, also_attempt⟩ := perform_cast_one beside
    refine ⟨_, _, next, last, performed, also_performed, ?_, still⟩
    rw [Operation.told, Operation.told, attempt, also_attempt]
    rfl
  | runDue =>
    obtain ⟨count, next, run⟩ : ∃ count next, left.runDue now = .ok (count, next) :=
      runDue_ok fun _ => range
    obtain ⟨other, last, beside⟩ : ∃ other last, right.runDue now = .ok (other, last) :=
      runDue_ok fun _ => alike.laws ▸ range
    exact ⟨.count count, .count other, next, last, by simp [perform, run],
      by simp [perform, beside], rfl, runDue_alike range alike run beside⟩
  | tick =>
    obtain ⟨count, next, ticked⟩ : ∃ count next, left.tick now = .ok (count, next) :=
      tick_ok fun _ => range
    obtain ⟨other, last, beside⟩ : ∃ other last, right.tick now = .ok (other, last) :=
      tick_ok fun _ => alike.laws ▸ range
    exact ⟨.count count, .count other, next, last, by simp [perform, ticked],
      by simp [perform, beside], rfl, tick_alike range alike ticked beside⟩
  | override other value =>
    obtain rfl : other = focus := by simpa [Operation.concerns] using concerns
    refine ⟨_, _, _, _, rfl, rfl, rfl, alike.laws, ?_, alike.waiting⟩
    cases other <;> rfl
  | sweep => exact ⟨_, _, _, _, rfl, rfl, rfl, alike.laws, alike.value, alike.waiting⟩
  | setDimensions => exact ⟨_, _, _, _, rfl, rfl, rfl, alike.laws, alike.value, alike.waiting⟩
  | drain => exact ⟨_, _, _, _, rfl, rfl, rfl, alike.laws, alike.value, alike.waiting⟩

theorem perform_apart (simple : operation.isSimple = true)
    (apart : operation.concerns focus = false) (now : UInt64) (engine : Engine) :
    ∃ answer next, engine.perform now operation = .ok (answer, next) ∧
      next.Alike focus engine := by
  cases operation with
  | cast spells =>
    obtain ⟨spell, rfl, plain⟩ := Operation.isSimple_cast simple
    have elsewhere : spell.focus ≠ focus := by simpa [Operation.concerns] using apart
    obtain ⟨verdict, next, cast, alike⟩ := castOne_apart plain elsewhere now engine
    exact ⟨_, next, (perform_cast_one cast).1, alike⟩
  | override other value =>
    have elsewhere : focus ≠ other := by simpa [Operation.concerns, eq_comm] using apart
    exact ⟨_, _, rfl, rfl, (Reality.set_get engine.reality other focus _).trans (if_neg elsewhere),
      rfl⟩
  | runDue | sweep | tick | setDimensions | drain =>
    exact absurd apart (by simp [Operation.concerns])

-- The left engine takes every step, the right one only those that concern the parameter.
theorem watch_alike {steps : List (UInt64 × Operation)}
    (range : left.laws.normalTimeMin ≤ left.laws.normalTimeMax)
    (simple : ∀ step ∈ steps, step.2.isSimple = true) (alike : left.Alike focus right) :
    ∃ seen, left.watch focus steps = .ok seen ∧
      seen.map (fun sighting => (sighting.reading, sighting.operation)) = steps ∧
      right.watch focus (steps.filter fun step => step.2.concerns focus) =
        .ok (seen.filter fun sighting => sighting.operation.concerns focus) := by
  induction steps generalizing left right with
  | nil => exact ⟨[], rfl, rfl, rfl⟩
  | cons step later ih =>
    obtain ⟨now, operation⟩ := step
    have step_simple : operation.isSimple = true := simple (now, operation) (by simp)
    have later_simple : ∀ step ∈ later, step.2.isSimple = true :=
      fun step member => simple step (List.mem_cons_of_mem _ member)
    cases concerns : operation.concerns focus with
    | true =>
      obtain ⟨answer, other, next, last, performed, beside, told, still⟩ :=
        perform_alike range step_simple concerns now alike
      obtain ⟨seen, watched, whole, left_in⟩ :=
        ih (by rwa [(perform_onward performed).laws]) later_simple still
      refine ⟨_, by simp only [watch, performed, watched, Fault.ok_bind]; rfl, by simp [whole], ?_⟩
      simp only [List.filter_cons, concerns, if_true, watch, beside, left_in, Fault.ok_bind, told,
        still.value, still.waiting]
      rfl
    | false =>
      obtain ⟨answer, next, performed, unseen⟩ := perform_apart step_simple concerns now left
      obtain ⟨seen, watched, whole, left_in⟩ :=
        ih (by rwa [(perform_onward performed).laws]) later_simple (unseen.trans alike)
      refine ⟨_, by simp only [watch, performed, watched, Fault.ok_bind]; rfl, by simp [whole], ?_⟩
      simpa [concerns] using left_in

theorem parameters_apart (focus : Focus) (steps : List (UInt64 × Operation)) (engine : Engine)
    (range : engine.laws.normalTimeMin ≤ engine.laws.normalTimeMax)
    (simple : ∀ step ∈ steps, step.2.isSimple = true) :
    ∃ seen, engine.watch focus steps = .ok seen ∧
      seen.map (fun sighting => (sighting.reading, sighting.operation)) = steps ∧
      engine.watch focus (steps.filter fun step => step.2.concerns focus) =
        .ok (seen.filter fun sighting => sighting.operation.concerns focus) :=
  watch_alike range simple (.refl focus engine)

-- The halving fires on the value that was set, and neither haste nor energy shows.
theorem parameters_apart_strained :
    let odds : Spell :=
      ⟨.probability, .ofKind .caster, ⟨.increase, 150⟩, 0, "", true, true, false, []⟩
    let haste : Spell := ⟨.time, .ofKind .caster, ⟨.increase, 150⟩, 0, "", true, true, false, []⟩
    let steps : List (UInt64 × Operation) := [(10, .cast [haste]), (10, .cast [odds]),
      (20, .override .energy 3.0), (30, .override .probability 40.0), (5010, .tick)]
    let engine := new {} (.ofSeed 0)
    (engine.laws.normalTimeMin ≤ engine.laws.normalTimeMax ∧
      ∀ step ∈ steps, step.2.isSimple = true) ∧
    ∃ seen, engine.watch .probability steps = .ok seen ∧
      engine.watch .probability
          [(10, .cast [odds]), (30, .override .probability 40.0), (5010, .tick)] =
        .ok (seen.filter fun sighting => sighting.operation.concerns .probability) ∧
      seen.map Sighting.value = [0.0, 150.0, 150.0, 40.0, 20.0] := by
  intro odds haste steps engine
  have range : engine.laws.normalTimeMin ≤ engine.laws.normalTimeMax := by decide
  have simple : ∀ step ∈ steps, step.2.isSimple = true := by decide
  obtain ⟨seen, watched, -, left_in⟩ := parameters_apart .probability steps engine range simple
  have values : (engine.watch .probability steps).toOption.map (·.map Sighting.value) =
      some [0.0, 150.0, 150.0, 40.0, 20.0] := by decide +kernel
  rw [watched] at values
  exact ⟨⟨range, simple⟩, seen, watched, left_in, Option.some.inj values⟩

end Engine

end Spellcraft
