import Spellcraft.Proofs.Reality.Cast

set_option autoImplicit false

namespace Spellcraft.Reality

def PlainlyWritten (laws : Laws) (focus : Focus) (shift : Int) (reality next : Reality)
    (deferred : List (UInt64 × Task)) : Prop :=
  match focus with
  | .energy =>
    let energy := reality.energy + Number.ofInteger shift
    ¬ energy < 0.0 ∧ deferred = [] ∧
      next = { reality with energy := Number.least energy laws.energyCeiling }
  | .probability =>
    let probability := reality.probability + Number.ofInteger shift
    deferred = (if laws.probabilityLimit < probability.abs then
        [(laws.probabilityCorrectionDelay, .halveProbability)] else []) ∧
      next = { reality with probability }
  | .entropy =>
    let entropy := reality.entropy + Number.ofInteger shift
    ¬ entropy < 0.0 ∧ ¬ laws.entropyCeiling < entropy ∧ deferred = [] ∧
      next = { reality with entropy }
  | .time =>
    let timeSpeed := 1.0 + Number.ofInteger shift / 100.0
    ¬ timeSpeed ≤ 0.0 ∧ ¬ laws.maxTimeMultiplier < timeSpeed ∧
      deferred = [(laws.timeNormalizationDelay, .normalizeTime)] ∧
      next = { reality with timeSpeed }

def RootWritten (laws : Laws) (keyword : Option Keyword) (shift : Int) (reality next : Reality) :
    Prop :=
  match keyword with
  | some .rootEntropy =>
    let entropy := reality.entropy + Number.ofInteger shift
    0.0 ≤ laws.privilegedEntropyCeiling ∧
      next = { reality with
        entropy := Number.confine 0.0 laws.privilegedEntropyCeiling entropy }
  | some .voidManifest =>
    next = { reality with
      energy := reality.energy + Number.ofNatural shift.natAbs
      probability := reality.probability + Number.ofInteger (shift * 2) }
  | some .quantumSuperposition =>
    next = { reality with probability := Number.ofInteger (shift * 3) }
  | some .paradoxEngine =>
    next = { reality with
      timeSpeed := if 0 < shift then laws.paradoxFastSpeed else laws.paradoxSlowSpeed }
  | some .kernelSpace | none => next = reality

variable {laws : Laws} {reality next : Reality} {outcome : Outcome}

theorem castPlain_written {focus : Focus} {shift : Int}
    (cast : castPlain laws focus shift reality = (outcome, next)) :
    outcome.verdict.success = false ∧ outcome.deferred = [] ∧ next = reality ∨
      outcome.verdict.success = true ∧
        PlainlyWritten laws focus shift reality next outcome.deferred := by
  unfold castPlain at cast
  split at cast
  · cases cast
    exact .inl ⟨rfl, rfl, rfl⟩
  · cases focus with
    | energy =>
      simp only [castEnergy] at cast
      split at cast
      next => cases cast; exact .inl ⟨rfl, rfl, rfl⟩
      next above => cases cast; exact .inr ⟨rfl, above, rfl, rfl⟩
    | probability =>
      simp only [castProbability] at cast
      cases cast
      refine .inr ⟨?_, ?_, rfl⟩
      · split <;> rfl
      · split <;> rfl
    | entropy =>
      simp only [castEntropy] at cast
      split at cast
      next => cases cast; exact .inl ⟨rfl, rfl, rfl⟩
      next above =>
        split at cast
        next => cases cast; exact .inl ⟨rfl, rfl, rfl⟩
        next below => cases cast; exact .inr ⟨rfl, above, below, rfl, rfl⟩
    | time =>
      simp only [castTime] at cast
      split at cast
      next => cases cast; exact .inl ⟨rfl, rfl, rfl⟩
      next above =>
        split at cast
        next => cases cast; exact .inl ⟨rfl, rfl, rfl⟩
        next below => cases cast; exact .inr ⟨rfl, above, below, rfl, rfl⟩

theorem castPrivileged_written {keyword : Option Keyword} {shift : Int}
    (cast : castPrivileged laws keyword shift reality = .ok (outcome, next)) :
    outcome.verdict.success = true ∧ outcome.deferred = [] ∧
      RootWritten laws keyword shift reality next := by
  unfold castPrivileged at cast
  split at cast
  case h_2 =>
    obtain ⟨entropy, held, done⟩ := Fault.bind_eq_ok.1 cast
    cases done
    rw [confine?] at held
    split at held
    next range =>
      cases held
      exact ⟨rfl, rfl, range, rfl⟩
    next => cases held
  all_goals
    cases cast
    exact ⟨rfl, rfl, rfl⟩

-- Whatever the outcome, reality remembers what the spell aimed at.
def aimedAt (reality : Reality) (focus : Focus) : Reality :=
  { reality with lastFocus := some focus }

theorem cast_written {spell : Spell} (cast : reality.cast laws spell = .ok (outcome, next)) :
    let aimed := reality.aimedAt spell.focus
    if spell.isPrivileged then
      outcome.verdict.success = true ∧ outcome.deferred = [] ∧
        RootWritten laws (Keyword.chosen? spell.keywords) spell.shift.signed aimed next
    else
      outcome.verdict.success = false ∧ outcome.deferred = [] ∧ next = aimed ∨
        outcome.verdict.success = true ∧
          PlainlyWritten laws spell.focus spell.shift.signed aimed next outcome.deferred := by
  simp only [Reality.cast] at cast
  split at cast
  next privileged =>
    simp only [privileged, if_true]
    exact castPrivileged_written cast
  next plain =>
    simp only [plain]
    exact castPlain_written (Except.ok.inj cast)

end Spellcraft.Reality
