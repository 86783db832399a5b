import Spellcraft.Proofs.Fault
import Spellcraft.Reality.Rules

set_option autoImplicit false

namespace Spellcraft

def Spell.leavesEffect (spell : Spell) : Bool :=
  !spell.isPrivileged || Keyword.chosen? spell.keywords == some .kernelSpace

structure Outcome.Fits (outcome : Outcome) (leaves : Bool) : Prop where
  effect : outcome.effect.isSome = (outcome.verdict.success && leaves)
  refused : outcome.verdict.success = false → outcome.deferred = []
  corrections : ∀ later ∈ outcome.deferred, ∀ id, later.2 ≠ .expireEffect id

namespace Reality

@[simp] theorem accepted_success (account : Account) : (Verdict.accepted account).success = true :=
  rfl

@[simp] theorem refused_success (refusal : Refusal) : (Verdict.refused refusal).success = false :=
  rfl

theorem refuse_fits (refusal : Refusal) (leaves : Bool) : (Outcome.refuse refusal).Fits leaves := by
  constructor <;> simp [Outcome.refuse]

theorem grant_fits (account : Account) : (Outcome.grant account).Fits false := by
  constructor <;> simp [Outcome.grant]

theorem withEffect_fits {outcome : Outcome} {leaves : Bool} (fits : outcome.Fits leaves)
    (accepted : outcome.verdict.success = true) (kind : EffectKind) (shift : Int)
    (duration : UInt64) : (outcome.withEffect kind shift duration).Fits true := by
  constructor
  · simp [Outcome.withEffect, accepted]
  · simp [Outcome.withEffect, accepted]
  · exact fits.corrections

theorem defer_fits {outcome : Outcome} {leaves : Bool} (fits : outcome.Fits leaves)
    (accepted : outcome.verdict.success = true) (delay : UInt64) {task : Task}
    (correction : ∀ id, task ≠ .expireEffect id) : (outcome.defer delay task).Fits leaves := by
  constructor
  · exact fits.effect
  · simp [Outcome.defer, accepted]
  · intro later member
    rcases List.mem_append.1 member with old | new
    · exact fits.corrections later old
    · simpa [List.mem_singleton.1 new] using correction

theorem castPlain_fits (laws : Laws) (focus : Focus) (shift : Int) (reality : Reality) :
    (castPlain laws focus shift reality).1.Fits true := by
  unfold castPlain
  split
  · exact refuse_fits _ _
  · cases focus with
    | energy =>
      simp only [castEnergy]
      split
      · exact refuse_fits _ _
      · exact withEffect_fits (grant_fits _) rfl _ _ _
    | probability =>
      simp only [castProbability]
      split
      · exact withEffect_fits (defer_fits (grant_fits _) rfl _ (by simp)) rfl _ _ _
      · exact withEffect_fits (grant_fits _) rfl _ _ _
    | entropy =>
      simp only [castEntropy]
      repeat' split
      · exact refuse_fits _ _
      · exact refuse_fits _ _
      · exact withEffect_fits (grant_fits _) rfl _ _ _
    | time =>
      simp only [castTime]
      repeat' split
      · exact refuse_fits _ _
      · exact refuse_fits _ _
      · exact defer_fits (withEffect_fits (grant_fits _) rfl _ _ _) rfl _ (by simp)

theorem openKernel_fits (laws : Laws) (shift : Int) : (openKernel laws shift).Fits true := by
  constructor <;> simp [openKernel, Outcome.grant]

theorem castPrivileged_spec {laws : Laws} {keyword : Option Keyword} {shift : Int}
    {reality next : Reality} {outcome : Outcome}
    (cast : castPrivileged laws keyword shift reality = .ok (outcome, next)) :
    outcome.Fits (keyword == some .kernelSpace) ∧ outcome.verdict.success = true ∧
      next.effects = reality.effects := by
  unfold castPrivileged at cast
  split at cast
  · cases cast
    exact ⟨openKernel_fits .., rfl, rfl⟩
  · obtain ⟨entropy, -, done⟩ := Fault.bind_eq_ok.1 cast
    cases done
    exact ⟨grant_fits _, rfl, rfl⟩
  all_goals
    cases cast
    exact ⟨grant_fits _, rfl, rfl⟩

theorem cast_fits {laws : Laws} {spell : Spell} {reality next : Reality} {outcome : Outcome}
    (cast : reality.cast laws spell = .ok (outcome, next)) : outcome.Fits spell.leavesEffect := by
  simp only [Reality.cast] at cast
  split at cast
  next privileged =>
    simpa [Spell.leavesEffect, privileged] using (castPrivileged_spec cast).1
  next plain =>
    obtain ⟨rfl, rfl⟩ := Prod.ext_iff.1 (Except.ok.inj cast)
    simpa [Spell.leavesEffect, plain] using castPlain_fits ..

theorem cast_privileged {laws : Laws} {spell : Spell} {reality next : Reality} {outcome : Outcome}
    (privileged : spell.isPrivileged = true)
    (cast : reality.cast laws spell = .ok (outcome, next)) : outcome.verdict.success = true := by
  simp only [Reality.cast, privileged, if_true] at cast
  exact (castPrivileged_spec cast).2.1

theorem castPlain_effects (laws : Laws) (focus : Focus) (shift : Int) (reality : Reality) :
    (castPlain laws focus shift reality).2.effects = reality.effects := by
  unfold castPlain
  split
  · rfl
  · cases focus <;> simp only [castEnergy, castProbability, castEntropy, castTime]
    all_goals repeat' split
    all_goals rfl

theorem cast_effects {laws : Laws} {spell : Spell} {reality next : Reality} {outcome : Outcome}
    (cast : reality.cast laws spell = .ok (outcome, next)) : next.effects = reality.effects := by
  simp only [Reality.cast] at cast
  split at cast
  · exact (castPrivileged_spec cast).2.2
  · obtain ⟨rfl, rfl⟩ := Prod.ext_iff.1 (Except.ok.inj cast)
    exact castPlain_effects ..

theorem castPlain_refused {laws : Laws} {focus : Focus} {shift : Int} {reality next : Reality}
    {outcome : Outcome} (cast : castPlain laws focus shift reality = (outcome, next))
    (refused : outcome.verdict.success = false) : next = reality := by
  unfold castPlain at cast
  split at cast
  · cases cast
    rfl
  -- No branch that writes to reality refuses.
  · cases focus <;> simp only [castEnergy, castProbability, castEntropy, castTime] at cast
    all_goals repeat' split at cast
    all_goals
      cases cast
      first | rfl | cases refused

theorem cast_refused {laws : Laws} {spell : Spell} {reality next : Reality} {outcome : Outcome}
    (cast : reality.cast laws spell = .ok (outcome, next))
    (refused : outcome.verdict.success = false) :
    next = { reality with lastFocus := some spell.focus } := by
  cases privileged : spell.isPrivileged with
  | true =>
    have accepted := cast_privileged privileged cast
    simp [refused] at accepted
  | false =>
    simp only [Reality.cast, privileged, Bool.false_eq_true, if_false, Except.ok.injEq] at cast
    exact castPlain_refused cast refused

theorem cast_ok {laws : Laws} (range : 0.0 ≤ laws.privilegedEntropyCeiling) (spell : Spell)
    (reality : Reality) : ∃ outcome next, reality.cast laws spell = .ok (outcome, next) := by
  simp only [Reality.cast]
  split
  · unfold castPrivileged
    split
    · exact ⟨_, _, rfl⟩
    · simp [confine?, range]
    all_goals exact ⟨_, _, rfl⟩
  · exact ⟨_, _, rfl⟩

end Reality

end Spellcraft
