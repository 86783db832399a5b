import Spellcraft.Proofs.Engine.Parameters
import Spellcraft.Proofs.Number.Sum
import Spellcraft.Proofs.Reality.Written

set_option autoImplicit false

namespace Spellcraft

open Number

/-- Bounds are numbers, ranges hold a value, and time runs forward in whatever is normal and in
either state of a paradox. -/
structure Laws.Sound (laws : Laws) : Prop where
  energyCeiling : 0.0 ≤ laws.energyCeiling
  entropyCeiling : laws.entropyCeiling.isNaN = false
  privilegedEntropyCeiling : 0.0 ≤ laws.privilegedEntropyCeiling
  maxTimeMultiplier : laws.maxTimeMultiplier.isNaN = false
  normalTimeMin : 0.0 < laws.normalTimeMin
  timeRange : laws.normalTimeMin ≤ laws.normalTimeMax
  paradoxFastSpeed : 0.0 < laws.paradoxFastSpeed
  paradoxSlowSpeed : 0.0 < laws.paradoxSlowSpeed

namespace Laws

def entropyLimit (laws : Laws) : Float :=
  max 100.0 (max laws.entropyCeiling laws.privilegedEntropyCeiling)

def timeLimit (laws : Laws) : Float :=
  max 2.0 (max laws.maxTimeMultiplier (max laws.normalTimeMax
    (max laws.paradoxFastSpeed laws.paradoxSlowSpeed)))

variable {laws : Laws} {x : Float}

theorem Sound.consistent (sound : laws.Sound) : laws.Consistent :=
  ⟨sound.timeRange, sound.privilegedEntropyCeiling⟩

theorem le_entropyLimit (sound : laws.Sound)
    (below : x ≤ 100.0 ∨ x ≤ laws.entropyCeiling ∨ x ≤ laws.privilegedEntropyCeiling) :
    x ≤ laws.entropyLimit := by
  have hundred : (100.0 : Float).isNaN = false := by decide
  rcases below with initial | plain | privileged
  · exact le_max_of_le_left initial
  · exact le_max_of_le_right hundred (le_max_of_le_left plain)
  · exact le_max_of_le_right hundred (le_max_of_le_right sound.entropyCeiling privileged)

theorem le_timeLimit (sound : laws.Sound)
    (below : x ≤ 2.0 ∨ x ≤ laws.maxTimeMultiplier ∨ x ≤ laws.normalTimeMax ∨
      x ≤ laws.paradoxFastSpeed ∨ x ≤ laws.paradoxSlowSpeed) : x ≤ laws.timeLimit := by
  have two : (2.0 : Float).isNaN = false := by decide
  have normal : laws.normalTimeMax.isNaN = false := (number_of_le sound.timeRange).2
  have fast : laws.paradoxFastSpeed.isNaN = false :=
    (number_of_le (le_of_lt sound.paradoxFastSpeed)).2
  rcases below with initial | plain | corrected | faster | slower
  · exact le_max_of_le_left initial
  · exact le_max_of_le_right two (le_max_of_le_left plain)
  · exact le_max_of_le_right two
      (le_max_of_le_right sound.maxTimeMultiplier (le_max_of_le_left corrected))
  · exact le_max_of_le_right two (le_max_of_le_right sound.maxTimeMultiplier
      (le_max_of_le_right normal (le_max_of_le_left faster)))
  · exact le_max_of_le_right two (le_max_of_le_right sound.maxTimeMultiplier
      (le_max_of_le_right normal (le_max_of_le_right fast slower)))

end Laws

namespace Reality

structure InRange (laws : Laws) (reality : Reality) : Prop where
  energy : 0.0 ≤ reality.energy
  entropy : 0.0 ≤ reality.entropy ∧ reality.entropy ≤ laws.entropyLimit
  timeSpeed : 0.0 < reality.timeSpeed ∧ reality.timeSpeed ≤ laws.timeLimit

structure InPlainRange (laws : Laws) (reality : Reality) : Prop extends
    reality.InRange laws where
  energyCeiling : reality.energy ≤ max 100.0 laws.energyCeiling
  entropyCeiling : reality.entropy ≤ max 100.0 laws.entropyCeiling

variable {laws : Laws} {reality next : Reality}

theorem initial_inPlainRange (sound : laws.Sound) : ({} : Reality).InPlainRange laws where
  energy := by decide
  entropy := ⟨by decide, Laws.le_entropyLimit sound (.inl (by decide))⟩
  timeSpeed := ⟨by decide, Laws.le_timeLimit sound (.inl (by decide))⟩
  energyCeiling := le_max_of_le_left (by decide)
  entropyCeiling := le_max_of_le_left (by decide)

theorem moved_number {x : Float} (above : 0.0 ≤ x) (shift : Int) :
    (x + ofInteger shift).isNaN = false :=
  isNaN_add (number_of_le above).2 (ofInteger_finite shift)

theorem plainlyWritten_inRange {focus : Focus} {shift : Int} {deferred : List (UInt64 × Task)}
    (sound : laws.Sound) (before : reality.InRange laws)
    (written : PlainlyWritten laws focus shift reality next deferred) : next.InRange laws := by
  cases focus with
  | energy =>
    obtain ⟨above, -, rfl⟩ := written
    have number := moved_number before.energy shift
    have raised := le_of_not_lt number (by decide) above
    exact { before with energy := le_least raised sound.energyCeiling }
  | probability =>
    obtain ⟨-, rfl⟩ := written
    exact { before with }
  | entropy =>
    obtain ⟨above, below, -, rfl⟩ := written
    have number := moved_number before.entropy.1 shift
    have raised := le_of_not_lt number (by decide) above
    have capped := le_of_not_lt sound.entropyCeiling number below
    exact { before with entropy := ⟨raised, Laws.le_entropyLimit sound (.inr (.inl capped))⟩ }
  | time =>
    obtain ⟨above, below, -, rfl⟩ := written
    have number := multiplier_number shift
    have forward := lt_of_not_le number (by decide) above
    have capped := le_of_not_lt sound.maxTimeMultiplier number below
    exact { before with timeSpeed := ⟨forward, Laws.le_timeLimit sound (.inr (.inl capped))⟩ }

theorem rootWritten_inRange {keyword : Option Keyword} {shift : Int} (sound : laws.Sound)
    (before : reality.InRange laws) (written : RootWritten laws keyword shift reality next) :
    next.InRange laws := by
  have unchanged (same : next = reality) : next.InRange laws := same ▸ before
  rcases keyword with _ | keyword
  · exact unchanged written
  cases keyword with
  | kernelSpace => exact unchanged written
  | rootEntropy =>
    obtain ⟨range, rfl⟩ := written
    have number := moved_number before.entropy.1 shift
    have capped := confine_le range number
    exact { before with
      entropy := ⟨le_confine range number, Laws.le_entropyLimit sound (.inr (.inr capped))⟩ }
  | voidManifest =>
    obtain rfl := written
    exact { before with energy := zero_le_add before.energy (zero_le_ofNatural _) }
  | quantumSuperposition =>
    obtain rfl := written
    exact { before with }
  | paradoxEngine =>
    obtain rfl := written
    have fast := sound.paradoxFastSpeed
    have slow := sound.paradoxSlowSpeed
    refine { before with timeSpeed := ?_ }
    dsimp only
    split
    · exact ⟨fast, Laws.le_timeLimit sound
        (.inr (.inr (.inr (.inl (le_refl (number_of_le (le_of_lt fast)).2)))))⟩
    · exact ⟨slow, Laws.le_timeLimit sound
        (.inr (.inr (.inr (.inr (le_refl (number_of_le (le_of_lt slow)).2)))))⟩

theorem cast_inRange {spell : Spell} {outcome : Outcome} (sound : laws.Sound)
    (cast : reality.cast laws spell = .ok (outcome, next)) (before : reality.InRange laws) :
    next.InRange laws := by
  have aimed : (reality.aimedAt spell.focus).InRange laws := { before with }
  have written := cast_written cast
  split at written
  next => exact rootWritten_inRange sound aimed written.2.2
  next =>
    rcases written with ⟨-, -, rfl⟩ | ⟨-, plain⟩
    · exact aimed
    · exact plainlyWritten_inRange sound aimed plain

-- No writer but a privileged spell lifts energy or entropy above what plain spells may.
theorem cast_inPlainRange {spell : Spell} {outcome : Outcome} (sound : laws.Sound)
    (plain : spell.isPrivileged = false) (cast : reality.cast laws spell = .ok (outcome, next))
    (before : reality.InPlainRange laws) : next.InPlainRange laws := by
  have inRange := cast_inRange sound cast before.toInRange
  have written := cast_written cast
  simp only [plain] at written
  rcases written with ⟨-, -, rfl⟩ | ⟨-, written⟩
  · exact { before with toInRange := inRange }
  · have hundred : (100.0 : Float).isNaN = false := by decide
    cases focus : spell.focus with
    | energy =>
      rw [focus] at written
      obtain ⟨-, -, rfl⟩ := written
      have ceiling := (number_of_le sound.energyCeiling).2
      exact { before with
        toInRange := inRange, energyCeiling := le_max_of_le_right hundred (least_le ceiling) }
    | probability =>
      rw [focus] at written
      obtain ⟨-, rfl⟩ := written
      exact { before with toInRange := inRange }
    | entropy =>
      rw [focus] at written
      obtain ⟨-, below, -, rfl⟩ := written
      have number := (number_of_le inRange.entropy.1).2
      have capped := le_of_not_lt sound.entropyCeiling number below
      exact { before with
        toInRange := inRange, entropyCeiling := le_max_of_le_right hundred capped }
    | time =>
      rw [focus] at written
      obtain ⟨-, -, -, rfl⟩ := written
      exact { before with toInRange := inRange }

theorem normalize_inRange (sound : laws.Sound) (before : reality.InRange laws) :
    InRange laws { reality with
      timeSpeed := confine laws.normalTimeMin laws.normalTimeMax reality.timeSpeed } := by
  have number := (number_of_le before.timeSpeed.2).1
  have raised := le_confine sound.timeRange number
  have capped := confine_le sound.timeRange number
  exact { before with
    timeSpeed := ⟨lt_of_lt_of_le sound.normalTimeMin raised,
      Laws.le_timeLimit sound (.inr (.inr (.inl capped)))⟩ }

theorem set_inRange {focus : Focus} {value : Float} (sound : laws.Sound)
    (number : value.isNaN = false) (before : reality.InRange laws) :
    (reality.set focus (confine (Engine.overrideRange focus).1 (Engine.overrideRange focus).2
      value)).InRange laws := by
  cases focus with
  | energy => exact { before with energy := le_confine (by decide) number }
  | probability => exact { before with }
  | entropy =>
    have capped : confine 0.0 100.0 value ≤ 100.0 := confine_le (by decide) number
    exact { before with
      entropy := ⟨le_confine (by decide) number, Laws.le_entropyLimit sound (.inl capped)⟩ }
  | time =>
    have capped : confine 0.1 2.0 value ≤ 2.0 := confine_le (by decide) number
    have raised : 0.1 ≤ confine 0.1 2.0 value := le_confine (by decide) number
    exact { before with
      timeSpeed := ⟨lt_of_lt_of_le (by decide) raised, Laws.le_timeLimit sound (.inl capped)⟩ }

theorem set_inPlainRange {focus : Focus} {value : Float} (sound : laws.Sound)
    (number : value.isNaN = false) (before : reality.InPlainRange laws) :
    (reality.set focus (confine (Engine.overrideRange focus).1 (Engine.overrideRange focus).2
      value)).InPlainRange laws := by
  have inRange : (reality.set focus (confine (Engine.overrideRange focus).1
      (Engine.overrideRange focus).2 value)).InRange laws :=
    set_inRange sound number before.toInRange
  have capped : confine 0.0 100.0 value ≤ 100.0 := confine_le (by decide) number
  cases focus with
  | energy =>
    exact { before with toInRange := inRange, energyCeiling := le_max_of_le_left capped }
  | entropy =>
    exact { before with toInRange := inRange, entropyCeiling := le_max_of_le_left capped }
  | probability | time => exact { before with toInRange := inRange }

theorem InRange.alike {left right : Reality} (inRange : left.InRange laws)
    (same : left.get = right.get) : right.InRange laws := by
  have energy : left.energy = right.energy := congrFun same .energy
  have entropy : left.entropy = right.entropy := congrFun same .entropy
  have timeSpeed : left.timeSpeed = right.timeSpeed := congrFun same .time
  exact ⟨energy ▸ inRange.energy, entropy ▸ inRange.entropy, timeSpeed ▸ inRange.timeSpeed⟩

theorem InPlainRange.alike {left right : Reality} (inRange : left.InPlainRange laws)
    (same : left.get = right.get) : right.InPlainRange laws := by
  have energy : left.energy = right.energy := congrFun same .energy
  have entropy : left.entropy = right.entropy := congrFun same .entropy
  exact ⟨inRange.toInRange.alike same, energy ▸ inRange.energyCeiling,
    entropy ▸ inRange.entropyCeiling⟩

end Reality

variable {laws : Laws}

theorem Laws.Sound.preserve (sound : laws.Sound) :
    laws.Preserve (fun _ => True) (fun _ value => value.isNaN = false) (Reality.InRange laws) where
  alike := Reality.InRange.alike
  cast _ cast before := Reality.cast_inRange sound cast before
  halve before := { before with }
  normalize _ before := Reality.normalize_inRange sound before
  set number before := Reality.set_inRange sound number before

theorem Laws.Sound.preservePlain (sound : laws.Sound) :
    laws.Preserve (·.isPrivileged = false) (fun _ value => value.isNaN = false)
      (Reality.InPlainRange laws) where
  alike := Reality.InPlainRange.alike
  cast plain cast before := Reality.cast_inPlainRange sound plain cast before
  halve before := { before with }
  normalize _ before :=
    { before with toInRange := Reality.normalize_inRange sound before.toInRange }
  set number before := Reality.set_inPlainRange sound number before

namespace Engine

theorem parameters_in_range (laws : Laws) (sound : laws.Sound) (ids : IdSupply)
    (steps : List (UInt64 × Operation))
    (numbers : ∀ step ∈ steps, step.2.Within (fun _ => True) fun _ value => value.isNaN = false) :
    ∃ last, (new laws ids).performAll steps = .ok last ∧
      0.0 ≤ last.reality.energy ∧
      (0.0 ≤ last.reality.entropy ∧ last.reality.entropy ≤
        max 100.0 (max laws.entropyCeiling laws.privilegedEntropyCeiling)) ∧
      (0.0 < last.reality.timeSpeed ∧ last.reality.timeSpeed ≤
        max 2.0 (max laws.maxTimeMultiplier (max laws.normalTimeMax
          (max laws.paradoxFastSpeed laws.paradoxSlowSpeed)))) ∧
      ((∀ step ∈ steps, step.2.Within (·.isPrivileged = false) fun _ _ => True) →
        last.reality.energy ≤ max 100.0 laws.energyCeiling ∧
        last.reality.entropy ≤ max 100.0 laws.entropyCeiling) := by
  have consistent : (new laws ids).laws.Consistent := sound.consistent
  have preserve : (new laws ids).laws.Preserve _ _ (Reality.InRange laws) := sound.preserve
  have initial := Reality.initial_inPlainRange sound
  obtain ⟨last, run, -, inRange⟩ :=
    performAll_preserves consistent preserve numbers initial.toInRange
  refine ⟨last, run, inRange.energy, inRange.entropy, inRange.timeSpeed, fun plain => ?_⟩
  have within (step : UInt64 × Operation) (member : step ∈ steps) :
      step.2.Within (·.isPrivileged = false) fun _ value => value.isNaN = false :=
    (plain step member).restrict (numbers step member)
  have preservePlain : (new laws ids).laws.Preserve _ _ (Reality.InPlainRange laws) :=
    sound.preservePlain
  obtain ⟨same, rerun, -, inPlainRange⟩ :=
    performAll_preserves consistent preservePlain within initial
  obtain rfl : last = same := Except.ok.inj (run.symm.trans rerun)
  exact ⟨inPlainRange.energyCeiling, inPlainRange.entropyCeiling⟩

theorem parameters_in_range_rooted :
    let rooted : Spell :=
      ⟨.entropy, .ofKind .zone, ⟨.increase, 4000000000⟩, 0, "", true, true, true, [.rootEntropy]⟩
    let hurried : Spell :=
      ⟨.time, .ofKind .caster, ⟨.increase, 150⟩, 0, "", true, true, false, []⟩
    let steps : List (UInt64 × Operation) :=
      [(10, .cast [rooted, hurried]), (20, .override .energy (-3.0)), (15020, .tick)]
    (Laws.Sound {} ∧
      ∀ step ∈ steps, step.2.Within (fun _ => True) fun _ value => value.isNaN = false) ∧
    ∃ last, (new {} (.ofSeed 0)).performAll steps = .ok last ∧
      0.0 ≤ last.reality.energy ∧
      (0.0 ≤ last.reality.entropy ∧ last.reality.entropy ≤ max 100.0 (max 200.0 500.0)) ∧
      (0.0 < last.reality.timeSpeed ∧
        last.reality.timeSpeed ≤ max 2.0 (max 5.0 (max 2.0 (max 10.0 0.1)))) := by
  intro rooted hurried steps
  have sound : Laws.Sound {} := by constructor <;> decide
  have numbers : ∀ step ∈ steps, step.2.Within (fun _ => True) fun _ value =>
      value.isNaN = false := by
    intro step member
    simp only [steps, List.mem_cons, List.not_mem_nil, or_false] at member
    rcases member with rfl | rfl | rfl
    · exact fun _ _ => trivial
    · change (-3.0 : Float).isNaN = false
      decide
    · trivial
  obtain ⟨last, run, energy, entropy, timeSpeed, -⟩ :=
    parameters_in_range {} sound (.ofSeed 0) steps numbers
  exact ⟨⟨sound, numbers⟩, last, run, energy, entropy, timeSpeed⟩

end Engine

end Spellcraft
