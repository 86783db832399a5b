import Spellcraft.Proofs.Engine.Parameters
import Spellcraft.Proofs.Number.Finite
import Spellcraft.Proofs.Reality.Written
import Spellcraft.Proofs.Spell
import Spellcraft.Proofs.Wire.Snapshot

set_option autoImplicit false

namespace Spellcraft

open Number

def Laws.reals (laws : Laws) : List Float :=
  [laws.energyCeiling, laws.entropyCeiling, laws.privilegedEntropyCeiling, laws.maxTimeMultiplier,
    laws.normalTimeMin, laws.normalTimeMax, laws.probabilityLimit, laws.paradoxFastSpeed,
    laws.paradoxSlowSpeed]

def Laws.IsFinite (laws : Laws) : Prop :=
  ∀ x ∈ laws.reals, x.isFinite = true

def Anchor.IsFinite (anchor : Anchor) : Prop :=
  ∀ entry ∈ anchor.parameters.entries, ∀ x ∈ entry.2.number?, x.isFinite = true

def Effect.IsFinite (effect : Effect) : Prop :=
  ∀ x ∈ effect.reals, x.isFinite = true

theorem Effect.isFinite_iff {effect : Effect} :
    effect.IsFinite ↔ effect.intensity.isFinite = true ∧ effect.anchor.IsFinite := by
  simp only [IsFinite, reals, List.forall_mem_cons, List.mem_filterMap, Anchor.IsFinite]
  refine and_congr_right fun _ => ⟨fun numbers entry listed x number => ?_, ?_⟩
  · exact numbers x ⟨entry, listed, number⟩
  · rintro anchor x ⟨entry, listed, number⟩
    exact anchor entry listed x number

namespace Reality

def LevelsFinite (reality : Reality) : Prop :=
  ∀ focus, (reality.get focus).isFinite = true

def IsFinite (reality : Reality) : Prop :=
  ∀ x ∈ reality.reals, x.isFinite = true

variable {laws : Laws} {reality next : Reality}

theorem isFinite_iff :
    reality.IsFinite ↔ reality.LevelsFinite ∧ ∀ effect ∈ reality.effects, effect.IsFinite := by
  rw [IsFinite, reals, List.forall_mem_append]
  refine and_congr ?_ ?_
  · simp only [List.forall_mem_cons, List.not_mem_nil, false_implies, implies_true, and_true]
    constructor
    · rintro ⟨energy, probability, entropy, time⟩ focus
      cases focus
      · exact energy
      · exact probability
      · exact entropy
      · exact time
    · intro levels
      exact ⟨levels .energy, levels .probability, levels .entropy, levels .time⟩
  · simp only [List.mem_flatMap, Effect.IsFinite]
    constructor
    · intro numbers effect member x within
      exact numbers x ⟨effect, member, within⟩
    · rintro effects x ⟨effect, member, within⟩
      exact effects effect member x within

theorem initial_isFinite : ({} : Reality).IsFinite := by
  rw [IsFinite]
  decide

theorem LevelsFinite.set (levels : reality.LevelsFinite) {value : Float}
    (finite : value.isFinite = true) (focus : Focus) : (reality.set focus value).LevelsFinite := by
  intro other
  have kept := levels other
  cases focus <;> cases other <;> first | exact finite | exact kept

theorem plainlyWritten_levels {focus : Focus} {shift : Int} {deferred : List (UInt64 × Task)}
    (finite : laws.IsFinite) (small : shift.natAbs < 2 ^ 32) (levels : reality.LevelsFinite)
    (written : PlainlyWritten laws focus shift reality next deferred) : next.LevelsFinite := by
  have moved (focus : Focus) : (reality.get focus + ofInteger shift).isFinite = true :=
    isFinite_add_integer (levels focus) (by omega)
  cases focus with
  | energy =>
    obtain ⟨-, -, rfl⟩ := written
    have ceiling := finite laws.energyCeiling (by simp [Laws.reals])
    exact levels.set (isFinite_least (moved .energy) ceiling) .energy
  | probability =>
    obtain ⟨-, rfl⟩ := written
    exact levels.set (moved .probability) .probability
  | entropy =>
    obtain ⟨-, -, -, rfl⟩ := written
    exact levels.set (moved .entropy) .entropy
  | time =>
    obtain ⟨-, -, -, rfl⟩ := written
    exact levels.set (isFinite_multiplier shift) .time

theorem rootWritten_levels {keyword : Option Keyword} {shift : Int} (finite : laws.IsFinite)
    (small : shift.natAbs < 2 ^ 32) (levels : reality.LevelsFinite)
    (written : RootWritten laws keyword shift reality next) : next.LevelsFinite := by
  have unchanged (same : next = reality) : next.LevelsFinite := same ▸ levels
  rcases keyword with _ | keyword
  · exact unchanged written
  cases keyword with
  | kernelSpace => exact unchanged written
  | rootEntropy =>
    obtain ⟨-, rfl⟩ := written
    have ceiling := finite laws.privilegedEntropyCeiling (by simp [Laws.reals])
    have moved : (reality.entropy + ofInteger shift).isFinite = true :=
      isFinite_add_integer (levels .entropy) (by omega)
    exact levels.set (isFinite_confine (by decide) ceiling moved) .entropy
  | voidManifest =>
    obtain rfl := written
    have energy : (reality.energy + ofInteger shift.natAbs).isFinite = true :=
      isFinite_add_integer (levels .energy) (by omega)
    have probability : (reality.probability + ofInteger (shift * 2)).isFinite = true :=
      isFinite_add_integer (levels .probability) (by omega)
    exact (levels.set energy .energy).set probability .probability
  | quantumSuperposition =>
    obtain rfl := written
    exact levels.set (ofInteger_finite _) .probability
  | paradoxEngine =>
    obtain rfl := written
    have fast := finite laws.paradoxFastSpeed (by simp [Laws.reals])
    have slow := finite laws.paradoxSlowSpeed (by simp [Laws.reals])
    refine levels.set ?_ .time
    split
    · exact fast
    · exact slow

theorem cast_levels {spell : Spell} {outcome : Outcome} (finite : laws.IsFinite)
    (cast : reality.cast laws spell = .ok (outcome, next)) (levels : reality.LevelsFinite) :
    next.LevelsFinite := by
  have small : spell.shift.signed.natAbs < 2 ^ 32 := by
    rw [Shift.natAbs_signed]
    exact spell.shift.amount.toNat_lt
  have aimed : (reality.aimedAt spell.focus).LevelsFinite := levels
  have written := cast_written cast
  split at written
  · exact rootWritten_levels finite small aimed written.2.2
  · rcases written with ⟨-, -, rfl⟩ | ⟨-, written⟩
    · exact aimed
    · exact plainlyWritten_levels finite small aimed written

-- The intensity of an effect is a share of the shift, whatever was aimed at.
theorem castPlain_intensity {focus : Focus} {shift : Int} {outcome : Outcome} {plan : EffectPlan}
    (cast : castPlain laws focus shift reality = (outcome, next))
    (planned : plan ∈ outcome.effect) : plan.intensity.isFinite = true := by
  unfold castPlain at cast
  split at cast
  · cases cast
    cases planned
  · cases focus <;> simp only [castEnergy, castProbability, castEntropy, castTime] at cast
    all_goals repeat' split at cast
    all_goals
      cases cast
      cases planned
    all_goals exact isFinite_share (ofNatural_finite _) (by simp)

theorem castPrivileged_intensity {keyword : Option Keyword} {shift : Int} {outcome : Outcome}
    {plan : EffectPlan} (cast : castPrivileged laws keyword shift reality = .ok (outcome, next))
    (planned : plan ∈ outcome.effect) : plan.intensity.isFinite = true := by
  unfold castPrivileged at cast
  split at cast
  case h_1 =>
    cases cast
    cases planned
    exact isFinite_share (ofNatural_finite _) (by simp)
  case h_2 =>
    obtain ⟨entropy, -, done⟩ := Fault.bind_eq_ok.1 cast
    cases done
    cases planned
  all_goals
    cases cast
    cases planned

theorem cast_intensity {spell : Spell} {outcome : Outcome} {plan : EffectPlan}
    (cast : reality.cast laws spell = .ok (outcome, next)) (planned : plan ∈ outcome.effect) :
    plan.intensity.isFinite = true := by
  simp only [Reality.cast] at cast
  split at cast
  · exact castPrivileged_intensity cast planned
  · exact castPlain_intensity (Except.ok.inj cast) planned

theorem begun_isFinite {spell : Spell} {outcome : Outcome} (anchor : spell.anchor.IsFinite)
    (cast : reality.cast laws spell = .ok (outcome, next)) (now : UInt64) (id : EffectId) :
    ∀ effect ∈ outcome.begun now id spell.anchor, effect.IsFinite := by
  intro effect begun
  obtain ⟨plan, planned, rfl⟩ := List.mem_map.1 begun
  have intensity := cast_intensity cast (Option.mem_toList.1 planned)
  exact Effect.isFinite_iff.2 ⟨intensity, anchor⟩

end Reality

-- Whatever is cast, since a shift is far too small to overflow.
theorem Laws.IsFinite.preserve {laws : Laws} {casts : Spell → Prop} (finite : laws.IsFinite) :
    laws.Preserve casts (fun _ value => value.isFinite = true) Reality.LevelsFinite where
  alike levels same focus := same ▸ levels focus
  cast _ cast levels := Reality.cast_levels finite cast levels
  halve levels := levels.set (isFinite_share (levels .probability) (by simp)) .probability
  normalize _ levels := by
    have least := finite laws.normalTimeMin (by simp [Laws.reals])
    have most := finite laws.normalTimeMax (by simp [Laws.reals])
    exact levels.set (isFinite_confine least most (levels .time)) .time
  set := by
    intro reality focus value finite levels
    have bounds : (Engine.overrideRange focus).1.isFinite = true ∧
        (Engine.overrideRange focus).2.isFinite = true := by
      cases focus <;> decide
    exact levels.set (isFinite_confine bounds.1 bounds.2 finite) focus

namespace Engine

variable {engine next last : Engine} {now : UInt64}

theorem cast_effects {spells : List Spell} {verdict : Verdict}
    (anchors : ∀ spell ∈ spells, spell.anchor.IsFinite)
    (cast : engine.cast now spells = .ok (verdict, last))
    (before : ∀ effect ∈ engine.reality.effects, effect.IsFinite) :
    ∀ effect ∈ last.reality.effects, effect.IsFinite := by
  induction spells generalizing engine with
  | nil =>
    cases cast
    exact before
  | cons spell others ih =>
    obtain ⟨anchor, behind⟩ := List.forall_mem_cons.1 anchors
    obtain ⟨first, next, one, rest⟩ := cast_cons cast
    obtain ⟨outcome, reality, decided, -, -, casts⟩ := castOne_casts one
    have after : ∀ effect ∈ next.reality.effects, effect.IsFinite := by
      rw [casts.effects]
      exact List.forall_mem_append.2 ⟨before, Reality.begun_isFinite anchor decided _ _⟩
    rcases rest with ⟨-, rest⟩ | ⟨-, -, rfl⟩
    · exact ih behind rest after
    · exact after

-- Only a cast begins effects, and the other operations at most take some away.
theorem perform_effects {operation : Operation} {answer : Answer} {sets : Focus → Float → Prop}
    (allowed : operation.Within (fun spell => spell.anchor.IsFinite) sets)
    (performed : engine.perform now operation = .ok (answer, next))
    (before : ∀ effect ∈ engine.reality.effects, effect.IsFinite) :
    ∀ effect ∈ next.reality.effects, effect.IsFinite := by
  have fired {count : Nat} {last : Engine} (run : engine.runDue now = .ok (count, last)) :
      ∀ effect ∈ last.reality.effects, effect.IsFinite := by
    rw [fireAll_effects (runDue_eq_ok.1 run).2]
    exact fun effect member => before effect (List.mem_of_mem_filter member)
  cases operation with
  | cast spells =>
    obtain ⟨⟨verdict, last⟩, cast, done⟩ := Fault.bind_eq_ok.1 performed
    cases done
    exact cast_effects allowed cast before
  | runDue =>
    obtain ⟨⟨count, last⟩, run, done⟩ := Fault.bind_eq_ok.1 performed
    cases done
    exact fired run
  | tick =>
    obtain ⟨⟨count, last⟩, ticked, done⟩ := Fault.bind_eq_ok.1 performed
    cases done
    obtain ⟨_, middle, run, -, rfl⟩ := tick_eq_ok.1 ticked
    exact fun effect member => fired run effect (List.mem_of_mem_filter member)
  | sweep =>
    cases performed
    exact fun effect member => before effect (List.mem_of_mem_filter member)
  | override focus value =>
    cases performed
    cases focus <;> exact before
  | setDimensions | drain =>
    cases performed
    exact before

theorem perform_isFinite {operation : Operation} {answer : Answer} (finite : engine.laws.IsFinite)
    (allowed : operation.Within (fun spell => spell.anchor.IsFinite)
      fun _ value => value.isFinite = true)
    (performed : engine.perform now operation = .ok (answer, next))
    (before : engine.reality.IsFinite) : next.reality.IsFinite := by
  obtain ⟨levels, effects⟩ := Reality.isFinite_iff.1 before
  exact Reality.isFinite_iff.2 ⟨perform_preserves finite.preserve allowed performed levels,
    perform_effects allowed performed effects⟩

theorem cast_isFinite {spells : List Spell} {verdict : Verdict} (finite : engine.laws.IsFinite)
    (anchors : ∀ spell ∈ spells, spell.anchor.IsFinite)
    (cast : engine.cast now spells = .ok (verdict, next)) (before : engine.reality.IsFinite) :
    next.reality.IsFinite := by
  have performed : engine.perform now (.cast spells) = .ok (.verdict verdict, next) := by
    simp [perform, cast]
  refine perform_isFinite finite ?_ performed before
  exact anchors

theorem tick_isFinite {count : Nat} (finite : engine.laws.IsFinite)
    (ticked : engine.tick now = .ok (count, next)) (before : engine.reality.IsFinite) :
    next.reality.IsFinite := by
  have performed : engine.perform now .tick = .ok (.count count, next) := by
    simp [perform, ticked]
  refine perform_isFinite finite ?_ performed before
  trivial

end Engine

end Spellcraft
