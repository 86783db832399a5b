import Spellcraft.Proofs.Engine.Parameters
import Spellcraft.Proofs.Engine.Tasks
import Spellcraft.Proofs.Reality.Written

set_option autoImplicit false

namespace Spellcraft

def Task.isCorrection : Task → Bool
  | .halveProbability | .normalizeTime => true
  | .expireEffect _ => false

def PendingTask.isCorrection (entry : PendingTask) : Bool :=
  entry.task.isCorrection

structure Attempt where
  laws : Laws
  reading : UInt64
  spell : Spell
  verdict : Verdict
  after : Reality

namespace Attempt

def isPlain (attempt : Attempt) : Bool :=
  attempt.verdict.success && !attempt.spell.isPrivileged

def halving (attempt : Attempt) : PendingTask :=
  ⟨Number.capped64 (attempt.reading.toNat + attempt.laws.probabilityCorrectionDelay.toNat),
    .halveProbability⟩

def normalization (attempt : Attempt) : PendingTask :=
  ⟨Number.capped64 (attempt.reading.toNat + attempt.laws.timeNormalizationDelay.toNat),
    .normalizeTime⟩

def strainsProbability (attempt : Attempt) : Bool :=
  attempt.isPlain && decide (attempt.spell.focus = .probability) &&
    decide (attempt.laws.probabilityLimit < attempt.after.probability.abs)

def movesTime (attempt : Attempt) : Bool :=
  attempt.isPlain && decide (attempt.spell.focus = .time)

def corrections (attempt : Attempt) : List PendingTask :=
  (if attempt.strainsProbability then [attempt.halving] else []) ++
    if attempt.movesTime then [attempt.normalization] else []

end Attempt

theorem Outcome.tasks_corrections {outcome : Outcome} {leaves : Bool} (fits : outcome.Fits leaves)
    (now : UInt64) (id : EffectId) :
    (outcome.tasks now id).filter PendingTask.isCorrection =
      outcome.deferred.map fun (delay, task) =>
        ⟨Number.capped64 (now.toNat + delay.toNat), task⟩ := by
  rw [Outcome.filter_tasks fun _ _ => rfl, List.filter_eq_self]
  intro entry member
  obtain ⟨⟨delay, task⟩, later, rfl⟩ := List.mem_map.1 member
  have correction := fits.corrections _ later
  cases task with
  | expireEffect other => exact absurd rfl (correction other)
  | halveProbability | normalizeTime => rfl

namespace Engine

variable {engine next last : Engine} {now : UInt64}

def attempts (now : UInt64) : List Spell → Engine → List Attempt
  | [], _ => []
  | spell :: others, engine =>
    match engine.castOne now spell with
    | .error _ => []
    | .ok (verdict, next) =>
      ⟨engine.laws, now, spell, verdict, next.reality⟩ ::
        if verdict.success then attempts now others next else []

def Operation.attempts (now : UInt64) (engine : Engine) : Operation → List Attempt
  | .cast spells => Engine.attempts now spells engine
  | .runDue | .sweep | .tick | .override .. | .setDimensions _ | .drain => []

theorem scheduledOne_corrections {spell : Spell} {verdict : Verdict}
    (cast : engine.castOne now spell = .ok (verdict, next)) :
    (engine.scheduledOne now spell).filter PendingTask.isCorrection =
      Attempt.corrections ⟨engine.laws, now, spell, verdict, next.reality⟩ := by
  obtain ⟨outcome, reality, decided, rfl, same⟩ := castOne_parameters cast
  have probability : reality.probability = next.reality.probability := congrFun same .probability
  have written := Reality.cast_written decided
  simp only [scheduledOne, decided, Outcome.tasks_corrections (Reality.cast_fits decided)]
  cases privileged : spell.isPrivileged with
  | true =>
    simp only [privileged, if_true] at written
    simp [written.2.1, Attempt.corrections, Attempt.strainsProbability, Attempt.movesTime,
      Attempt.isPlain, privileged]
  | false =>
    simp only [privileged] at written
    rcases written with ⟨refused, none_deferred, -⟩ | ⟨accepted, written⟩
    · simp [none_deferred, Attempt.corrections, Attempt.strainsProbability, Attempt.movesTime,
        Attempt.isPlain, refused]
    · simp only [Attempt.corrections, Attempt.strainsProbability, Attempt.movesTime,
        Attempt.isPlain, accepted, privileged, ← probability]
      cases focus : spell.focus with
      | energy =>
        rw [focus] at written
        simp [written.2.1]
      | probability =>
        rw [focus] at written
        obtain ⟨deferred, rfl⟩ := written
        rw [deferred]
        split
        next strained => simp [strained, Attempt.halving]
        next calm => simp [calm]
      | entropy =>
        rw [focus] at written
        simp [written.2.2.1]
      | time =>
        rw [focus] at written
        simp [written.2.2.1, Attempt.normalization]

theorem scheduled_corrections (now : UInt64) (spells : List Spell) (engine : Engine) :
    (scheduled now spells engine).filter PendingTask.isCorrection =
      (attempts now spells engine).flatMap Attempt.corrections := by
  induction spells generalizing engine with
  | nil => rfl
  | cons spell others ih =>
    cases one : engine.castOne now spell with
    | error fault => simp [scheduled, attempts, one]
    | ok cast =>
      obtain ⟨verdict, next⟩ := cast
      simp only [scheduled, attempts, one, List.filter_append, scheduledOne_corrections one,
        List.flatMap_cons]
      split
      · rw [ih]
      · rfl

end Engine

end Spellcraft
