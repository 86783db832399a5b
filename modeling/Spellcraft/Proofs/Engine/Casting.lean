import Spellcraft.Engine
import Spellcraft.Proofs.Reality.Cast
import Spellcraft.Proofs.Timeline

set_option autoImplicit false

namespace Spellcraft

def EffectPlan.begin (plan : EffectPlan) (now : UInt64) (id : EffectId) (anchor : Anchor) :
    Effect where
  id := id
  kind := plan.kind
  anchor := anchor
  shift := plan.shift
  duration := plan.duration
  start := now
  intensity := plan.intensity

def Outcome.begun (outcome : Outcome) (now : UInt64) (id : EffectId) (anchor : Anchor) :
    List Effect :=
  outcome.effect.toList.map (·.begin now id anchor)

def Outcome.tasks (outcome : Outcome) (now : UInt64) (id : EffectId) : List PendingTask :=
  -- The end of the effect goes first, and the corrections behind it.
  (outcome.effect.toList.map fun plan =>
    ⟨Number.capped64 (now.toNat + plan.duration.toNat), .expireEffect id⟩) ++
  outcome.deferred.map fun (delay, task) =>
    ⟨Number.capped64 (now.toNat + delay.toNat), task⟩

theorem Outcome.filter_tasks {keep : PendingTask → Bool}
    (ends_not_kept : ∀ due id, keep ⟨due, .expireEffect id⟩ = false) (outcome : Outcome)
    (now : UInt64) (id : EffectId) :
    (outcome.tasks now id).filter keep =
      (outcome.deferred.map fun (delay, task) =>
        (⟨Number.capped64 (now.toNat + delay.toNat), task⟩ : PendingTask)).filter keep := by
  rw [tasks, List.filter_append]
  cases outcome.effect with
  | none => rfl
  | some plan => simp [ends_not_kept]

namespace Engine

theorem settle_deferred (engine : Engine) (now : UInt64) (deferred : List (UInt64 × Task)) :
    deferred.foldl (fun engine (delay, task) => engine.schedule now delay task) engine =
      { engine with timeline := engine.timeline.scheduleAll (deferred.map fun (delay, task) =>
          ⟨Number.capped64 (now.toNat + delay.toNat), task⟩) } := by
  induction deferred generalizing engine with
  | nil => rfl
  | cons first rest ih =>
    rw [List.foldl_cons, ih]
    rfl

theorem settle_eq (engine : Engine) (now : UInt64) (anchor : Anchor) (outcome : Outcome) :
    engine.settle now anchor outcome =
      { engine with
        reality := { engine.reality with
          effects := engine.reality.effects ++ outcome.begun now engine.ids.next anchor }
        timeline := engine.timeline.scheduleAll (outcome.tasks now engine.ids.next)
        ids := { engine.ids with used := engine.ids.used + outcome.effect.toList.length } } := by
  simp only [settle, settle_deferred, Outcome.begun, Outcome.tasks]
  cases outcome.effect with
  | none => simp
  | some plan => rfl

structure Casts (engine : Engine) (now : UInt64) (spell : Spell) (outcome : Outcome)
    (next : Engine) : Prop where
  laws : next.laws = engine.laws
  effects : next.reality.effects =
    engine.reality.effects ++ outcome.begun now engine.ids.next spell.anchor
  timeline : next.timeline = engine.timeline.scheduleAll (outcome.tasks now engine.ids.next)
  draw : next.ids.draw = engine.ids.draw
  used : next.ids.used = engine.ids.used + outcome.effect.toList.length
  events : ∃ event, next.events = engine.events ++ [event] ∧ ∀ id, event ≠ .effectExpired id

theorem castOne_casts {engine next : Engine} {now : UInt64} {spell : Spell} {verdict : Verdict}
    (cast : engine.castOne now spell = .ok (verdict, next)) :
    ∃ outcome reality, engine.reality.cast engine.laws spell = .ok (outcome, reality) ∧
      outcome.verdict = verdict ∧ outcome.Fits spell.leavesEffect ∧
      engine.Casts now spell outcome next := by
  obtain ⟨⟨outcome, reality⟩, decided, rest⟩ := Fault.bind_eq_ok.1 cast
  have fits := Reality.cast_fits decided
  have effects := Reality.cast_effects decided
  by_cases accepted : outcome.verdict.success = true
  · simp only [accepted, if_true, Fault.pure_eq_ok, Except.ok.injEq, Prod.mk.injEq] at rest
    obtain ⟨rfl, rfl⟩ := rest
    refine ⟨outcome, reality, decided, rfl, fits, ?_⟩
    rw [settle_eq]
    exact ⟨rfl, by simp [log, effects], rfl, rfl, rfl, _, rfl, by simp⟩
  · have refused : outcome.verdict.success = false := by simpa using accepted
    -- A refused spell begins nothing and schedules nothing, so both kinds of outcome read alike.
    have no_effect : outcome.effect = none := by simpa [refused] using fits.effect
    have no_tasks : outcome.tasks now engine.ids.next = [] := by
      simp [Outcome.tasks, no_effect, fits.refused refused]
    simp only [refused, Bool.false_eq_true, if_false, Fault.pure_eq_ok, Except.ok.injEq,
      Prod.mk.injEq] at rest
    obtain ⟨rfl, rfl⟩ := rest
    refine ⟨outcome, reality, decided, rfl, fits, ?_⟩
    exact ⟨rfl, by simp [log, effects, Outcome.begun, no_effect], by simp [log, no_tasks], rfl,
      by simp [log, no_effect], _, rfl, by simp⟩

theorem castOne_privileged {engine next : Engine} {now : UInt64} {spell : Spell} {verdict : Verdict}
    (privileged : spell.isPrivileged = true)
    (cast : engine.castOne now spell = .ok (verdict, next)) : verdict.success = true := by
  obtain ⟨⟨outcome, reality⟩, decided, rest⟩ := Fault.bind_eq_ok.1 cast
  have accepted := Reality.cast_privileged privileged decided
  simp only [accepted, if_true, Fault.pure_eq_ok, Except.ok.injEq, Prod.mk.injEq] at rest
  rwa [← rest.1]

theorem castOne_ok {engine : Engine} (range : 0.0 ≤ engine.laws.privilegedEntropyCeiling)
    (now : UInt64) (spell : Spell) :
    ∃ verdict next, engine.castOne now spell = .ok (verdict, next) := by
  obtain ⟨outcome, reality, decided⟩ := Reality.cast_ok range spell engine.reality
  simp only [castOne, decided, Fault.ok_bind]
  split
  · exact ⟨_, _, rfl⟩
  · exact ⟨_, _, rfl⟩

theorem cast_cons {engine last : Engine} {now : UInt64} {spell : Spell} {others : List Spell}
    {verdict : Verdict} (cast : engine.cast now (spell :: others) = .ok (verdict, last)) :
    ∃ first next, engine.castOne now spell = .ok (first, next) ∧
      ((first.success = true ∧ next.cast now others = .ok (verdict, last)) ∨
        (first.success = false ∧ first = verdict ∧ next = last)) := by
  obtain ⟨⟨first, next⟩, one, rest⟩ := Fault.bind_eq_ok.1 cast
  refine ⟨first, next, one, ?_⟩
  by_cases accepted : first.success = true
  · exact .inl ⟨accepted, by simpa [accepted] using rest⟩
  · have refused : first.success = false := by simpa using accepted
    exact .inr ⟨refused, by simpa [refused] using rest⟩

end Engine

end Spellcraft
