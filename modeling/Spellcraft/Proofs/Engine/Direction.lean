import Spellcraft.Proofs.Engine.Finite
import Spellcraft.Proofs.Engine.Independence
import Spellcraft.Proofs.Number.Moved
import Spellcraft.Proofs.Spell

set_option autoImplicit false

namespace Spellcraft

open Number

def Shift.told (shift : Shift) (up down : String) : String :=
  (if shift.direction = .increase ∧ shift.amount ≠ 0 then up else down) ++ " by " ++
    toString shift.amount ++ "%."

def Spell.told (spell : Spell) (value : Float) : String :=
  match spell.focus with
  | .energy => "Energy level " ++ spell.shift.told "increased" "decreased"
  | .probability =>
    if 100.0 < value.abs then "Probability shifted drastically. Reality struggles to compensate."
    else "Probability " ++ spell.shift.told "increased" "decreased"
  | .entropy => "Entropy level " ++ spell.shift.told "increased" "decreased"
  | .time => "Time flow " ++ spell.shift.told "accelerated" "decelerated"

theorem Shift.signed_pos (shift : Shift) :
    0 < shift.signed ↔ shift.direction = .increase ∧ shift.amount ≠ 0 := by
  rw [signed]
  cases shift.direction with
  | increase => simp [Nat.pos_iff_ne_zero, ← UInt32.toNat_inj]
  | decrease => simp

def Account.ofShift (laws : Laws) (focus : Focus) (shift : Int) (value : Float) : Account :=
  match focus with
  | .energy => .energyMoved shift
  | .probability =>
    if laws.probabilityLimit < value.abs then .probabilityStrained else .probabilityMoved shift
  | .entropy => .entropyMoved shift
  | .time => .timeMoved shift

theorem Account.byPercent_signed (start up down : String) (shift : Shift) :
    byPercent start up down shift.signed = start ++ shift.told up down := by
  have way : (if 0 < shift.signed then up else down) =
      if shift.direction = .increase ∧ shift.amount ≠ 0 then up else down :=
    if_congr shift.signed_pos rfl rfl
  rw [byPercent, shift.natAbs_signed, way, Shift.told]
  simp only [String.append_assoc]
  rfl

theorem Account.message_ofShift (spell : Spell) (value : Float) :
    (ofShift {} spell.focus spell.shift.signed value).message = spell.told value := by
  unfold ofShift Spell.told
  cases spell.focus with
  | energy => exact byPercent_signed ..
  | probability =>
    change (if (100.0 : Float) < value.abs then _ else _ : Account).message = _
    split
    · rfl
    · exact byPercent_signed ..
  | entropy => exact byPercent_signed ..
  | time => exact byPercent_signed ..

namespace Reality

/-- Energy above its ceiling, and no other level, is out of reach for unprivileged spells. -/
def InReach (laws : Laws) (focus : Focus) (reality : Reality) : Prop :=
  focus = .energy → reality.get focus ≤ laws.energyCeiling

/-- What an accepted unprivileged spell does to the levels. -/
structure Follows (laws : Laws) (spell : Spell) (before after : Reality) : Prop where
  others : ∀ other, other ≠ spell.focus → after.get other = before.get other
  lowered : spell.shift.direction = .decrease → after.get spell.focus ≤ before.get spell.focus
  raised : spell.shift.direction = .increase → before.InReach laws spell.focus →
    before.get spell.focus ≤ after.get spell.focus
  near : before.InReach laws spell.focus →
    |toRat (after.get spell.focus) - toRat (before.get spell.focus)| ≤
      spell.shift.amount.toNat + slack (toRat (before.get spell.focus) + spell.shift.signed)
  beyond : ¬ before.InReach laws spell.focus → after.get spell.focus ≤ laws.energyCeiling ∧
    after.get spell.focus =
      least (before.get spell.focus + ofInteger spell.shift.signed) laws.energyCeiling

variable {laws : Laws} {reality next : Reality} {outcome : Outcome} {spell : Spell} {focus : Focus}
  {shift : Int}

theorem castPlain_account (cast : castPlain laws focus shift reality = (outcome, next))
    (accepted : outcome.verdict.success = true) :
    outcome.verdict = .accepted (.ofShift laws focus shift (next.get focus)) := by
  unfold castPlain at cast
  split at cast
  · cases cast
    cases accepted
  · cases focus with
    | energy =>
      simp only [castEnergy] at cast
      split at cast <;> cases cast
      · cases accepted
      · rfl
    | probability =>
      simp only [castProbability] at cast
      cases cast
      change _ = Verdict.accepted
        (if laws.probabilityLimit < (reality.probability + ofInteger shift).abs then _ else _)
      split <;> rfl
    | entropy =>
      simp only [castEntropy] at cast
      repeat' split at cast
      all_goals cases cast
      · cases accepted
      · cases accepted
      · rfl
    | time =>
      simp only [castTime] at cast
      repeat' split at cast
      all_goals cases cast
      · cases accepted
      · cases accepted
      · rfl

def taken (laws : Laws) (shift : Int) (reality : Reality) (focus : Focus) : Float :=
  let moved := reality.get focus + ofInteger shift
  if focus = .energy then least moved laws.energyCeiling else moved

theorem PlainlyWritten.eq_set {deferred : List (UInt64 × Task)} (level : focus ≠ .time)
    (written : PlainlyWritten laws focus shift reality next deferred) :
    next = reality.set focus (taken laws shift reality focus) := by
  cases focus with
  | energy => exact written.2.2
  | probability => exact written.2
  | entropy => exact written.2.2.2
  | time => exact absurd rfl level

theorem follows_taken (ceiling : laws.energyCeiling.isFinite = true)
    (levels : reality.LevelsFinite) (spell : Spell) :
    Follows laws spell reality (reality.set spell.focus
      (taken laws spell.shift.signed reality spell.focus)) := by
  have amount := spell.shift.natAbs_signed
  have fits := spell.shift.amount.toNat_lt
  have small : spell.shift.signed.natAbs < 2 ^ 53 := by omega
  have finite := levels spell.focus
  have moved_finite : (reality.get spell.focus + ofInteger spell.shift.signed).isFinite = true :=
    isFinite_add_integer finite (by omega)
  have near := moved_near finite moved_finite small
  rw [amount] at near
  have own : (reality.set spell.focus (taken laws spell.shift.signed reality spell.focus)).get
      spell.focus = taken laws spell.shift.signed reality spell.focus :=
    (set_get ..).trans (if_pos rfl)
  constructor
  case others => exact fun other apart => (set_get ..).trans (if_neg apart)
  all_goals rw [own, taken]
  case lowered =>
    intro down
    have back : spell.shift.signed ≤ 0 := by simp [Shift.signed, down]
    have lower := moved_le finite small back
    split
    · exact Number.le_trans (least_le_left moved_finite ceiling) lower
    · exact lower
  case raised =>
    intro up reach
    have forth : 0 ≤ spell.shift.signed := by simp [Shift.signed, up]
    have higher := le_moved finite small forth
    split
    next energy => exact le_least higher (reach energy)
    next => exact higher
  case near =>
    intro reach
    split
    next energy => exact (least_near finite ceiling moved_finite (reach energy)).trans near
    next => exact near
  case beyond =>
    intro beyond
    have energy : spell.focus = .energy := by
      by_contra other
      exact beyond fun energy => absurd energy other
    simp only [if_pos energy, and_true]
    exact least_le (isNaN_of_isFinite ceiling)

-- Nothing but the levels matters.
theorem Follows.congr {first last : Reality} (follows : Follows laws spell reality next)
    (before : reality.get = first.get) (after : next.get = last.get) :
    Follows laws spell first last := by
  have reach : reality.InReach laws spell.focus = first.InReach laws spell.focus := by
    rw [InReach, InReach, before]
  obtain ⟨others, lowered, raised, near, beyond⟩ := follows
  rw [before, after] at others lowered
  rw [reach, before, after] at raised near beyond
  exact ⟨others, lowered, raised, near, beyond⟩

theorem cast_follows (ceiling : laws.energyCeiling.isFinite = true)
    (levels : reality.LevelsFinite) (plain : spell.isPrivileged = false)
    (level : spell.focus ≠ .time) (cast : reality.cast laws spell = .ok (outcome, next))
    (accepted : outcome.verdict.success = true) :
    outcome.verdict = .accepted
        (.ofShift laws spell.focus spell.shift.signed (next.get spell.focus)) ∧
      Follows laws spell reality next := by
  simp only [Reality.cast, plain, Bool.false_eq_true, if_false, Except.ok.injEq] at cast
  refine ⟨castPlain_account cast accepted, ?_⟩
  rcases castPlain_written cast with ⟨refused, -⟩ | ⟨-, written⟩
  · simp [accepted] at refused
  · have aimed : (reality.aimedAt spell.focus).get = reality.get :=
      funext (get_aimed reality (some spell.focus))
    have finite : (reality.aimedAt spell.focus).LevelsFinite := levels
    exact (follows_taken ceiling finite spell).congr aimed
      (congrArg get (written.eq_set level).symm)

end Reality

namespace Engine

theorem spells_followed (ids : IdSupply) (steps : List (UInt64 × Operation))
    (finite : ∀ step ∈ steps,
      step.2.Within (fun _ => True) fun _ value => value.isFinite = true) :
    ∃ engine, (new {} ids).performAll steps = .ok engine ∧
      ∀ (now : UInt64) (spell : Spell), spell.isPrivileged = false → spell.focus ≠ .time →
        ∃ verdict next, engine.castOne now spell = .ok (verdict, next) ∧
          (verdict.success = true →
            verdict.message = spell.told (next.reality.get spell.focus) ∧
            verdict.feedback = none ∧ Reality.Follows {} spell engine.reality next.reality) := by
  have consistent_laws : ({} : Laws).Consistent := ⟨by decide, by decide⟩
  have finite_laws : ({} : Laws).IsFinite := by
    rw [Laws.IsFinite]
    decide
  have consistent : (new {} ids).laws.Consistent := consistent_laws
  have initial : (new {} ids).reality.LevelsFinite :=
    (Reality.isFinite_iff.1 Reality.initial_isFinite).1
  have preserve : (new {} ids).laws.Preserve (fun _ => True) _ Reality.LevelsFinite :=
    finite_laws.preserve
  obtain ⟨engine, run, laws, levels⟩ := performAll_preserves consistent preserve finite initial
  refine ⟨engine, run, fun now spell plain level => ?_⟩
  obtain ⟨verdict, next, one⟩ := castOne_ok (laws ▸ consistent.entropyRange) now spell
  refine ⟨verdict, next, one, fun accepted => ?_⟩
  obtain ⟨outcome, reality, decided, rfl, same⟩ := castOne_parameters one
  rw [laws] at decided
  have ceiling : ({} : Laws).energyCeiling.isFinite = true := by decide
  obtain ⟨account, follows⟩ :=
    Reality.cast_follows ceiling levels plain level decided accepted
  rw [← same, account]
  exact ⟨Account.message_ofShift spell _, rfl, follows.congr rfl same⟩

-- Energy is above its ceiling here, so that only its fall is certain; entropy moves as told, and a
-- shift by nothing is told as a decrease.
theorem spells_followed_beyond :
    let plain (focus : Focus) (shift : Shift) : Spell :=
      ⟨focus, .ofKind .caster, shift, 0, "", false, true, false, []⟩
    let created : Spell :=
      ⟨.time, .ofKind .caster, ⟨.decrease, 150⟩, 0, "", false, true, true, [.voidManifest]⟩
    let steps : List (UInt64 × Operation) :=
      [(0, .cast [created, plain .probability ⟨.increase, 40⟩]), (5, .override .entropy 15.5),
        (6000, .tick)]
    let lower := plain .energy ⟨.decrease, 10⟩
    let unsettle := plain .entropy ⟨.increase, 30⟩
    let still := plain .entropy ⟨.increase, 0⟩
    (∀ step ∈ steps, step.2.Within (fun _ => True) fun _ value => value.isFinite = true) ∧
    ∃ engine, (new {} (.ofSeed 0)).performAll steps = .ok engine ∧
      (lower.isPrivileged = false ∧ lower.focus ≠ .time ∧ ∃ verdict next,
        engine.castOne 6000 lower = .ok (verdict, next) ∧ verdict.success = true ∧
          verdict.message = "Energy level decreased by 10%." ∧
          next.reality.get .energy ≤ engine.reality.get .energy ∧
          next.reality.get .energy ≤ 200.0) ∧
      (unsettle.isPrivileged = false ∧ unsettle.focus ≠ .time ∧ ∃ verdict next,
        engine.castOne 6000 unsettle = .ok (verdict, next) ∧ verdict.success = true ∧
          verdict.message = "Entropy level increased by 30%." ∧
          engine.reality.get .entropy ≤ next.reality.get .entropy ∧
          |toRat (next.reality.get .entropy) - toRat (engine.reality.get .entropy)| ≤
            30 + slack (toRat (engine.reality.get .entropy) + 30) ∧
          next.reality.get .energy = engine.reality.get .energy) ∧
      still.isPrivileged = false ∧ still.focus ≠ .time ∧ ∃ verdict next,
        engine.castOne 6000 still = .ok (verdict, next) ∧ verdict.success = true ∧
          verdict.message = "Entropy level decreased by 0%." ∧
          engine.reality.get .entropy ≤ next.reality.get .entropy := by
  intro plain created steps lower unsettle still
  have finite : ∀ step ∈ steps, step.2.Within (fun _ => True) fun _ value =>
      value.isFinite = true := by
    intro step member
    simp only [steps, List.mem_cons, List.not_mem_nil, or_false] at member
    rcases member with rfl | rfl | rfl
    · exact fun _ _ => trivial
    · change (15.5 : Float).isFinite = true
      decide
    · trivial
  obtain ⟨engine, ran, followed⟩ := spells_followed (.ofSeed 0) steps finite
  obtain ⟨verdict, next, one, lowered⟩ := followed 6000 lower rfl (by decide)
  obtain ⟨verdict', next', one', unsettled⟩ := followed 6000 unsettle rfl (by decide)
  obtain ⟨verdict'', next'', one'', kept⟩ := followed 6000 still rfl (by decide)
  have facts : ((new {} (.ofSeed 0)).performAll steps >>= fun engine => do
      let lowered ← engine.castOne 6000 lower
      let unsettled ← engine.castOne 6000 unsettle
      let kept ← engine.castOne 6000 still
      return (lowered.1.success, unsettled.1.success, kept.1.success,
        decide (engine.reality.energy ≤ 200.0))) = .ok (true, true, true, false) := by
    decide +kernel
  rw [ran, Fault.ok_bind, one, Fault.ok_bind, one', Fault.ok_bind, one''] at facts
  obtain ⟨accepted, others⟩ := Prod.mk.inj (Except.ok.inj facts)
  obtain ⟨accepted', others⟩ := Prod.mk.inj others
  obtain ⟨accepted'', above⟩ := Prod.mk.inj others
  obtain ⟨told, -, follows⟩ := lowered accepted
  obtain ⟨told', -, follows'⟩ := unsettled accepted'
  obtain ⟨told'', -, follows''⟩ := kept accepted''
  have beyond : ¬ engine.reality.InReach {} lower.focus :=
    fun reach => of_decide_eq_false above (reach rfl)
  have reach : engine.reality.InReach {} unsettle.focus := fun energy => by cases energy
  have reach' : engine.reality.InReach {} still.focus := fun energy => by cases energy
  have lower_told : "Energy level " ++ lower.shift.told "increased" "decreased" =
      "Energy level decreased by 10%." := by decide
  have unsettle_told : "Entropy level " ++ unsettle.shift.told "increased" "decreased" =
      "Entropy level increased by 30%." := by decide
  have still_told : "Entropy level " ++ still.shift.told "increased" "decreased" =
      "Entropy level decreased by 0%." := by decide
  exact ⟨finite, engine, ran, ⟨rfl, by decide, verdict, next, one, accepted, told.trans lower_told,
    follows.lowered rfl, (follows.beyond beyond).1⟩, ⟨rfl, by decide, verdict', next', one',
    accepted', told'.trans unsettle_told, follows'.raised rfl reach, follows'.near reach,
    follows'.others .energy (by decide)⟩, rfl, by decide, verdict'', next'', one'', accepted'',
    told''.trans still_told, follows''.raised rfl reach'⟩

-- Energy that was created beyond the ceiling falls by a spell that is to raise it, and entropy is
-- told to decrease by one that is to raise it by nothing.
theorem energy_brought_down :
    let created : Spell :=
      ⟨.energy, .ofKind .caster, ⟨.increase, 150⟩, 0, "", false, true, true, [.voidManifest]⟩
    let raise : Spell :=
      ⟨.energy, .ofKind .caster, ⟨.increase, 10⟩, 0, "", false, true, false, []⟩
    let still : Spell :=
      ⟨.entropy, .ofKind .caster, ⟨.increase, 0⟩, 0, "", false, true, false, []⟩
    ∃ engine next : Engine, (new {} (.ofSeed 0)).performAll [(0, .cast [created])] = .ok engine ∧
      raise.isPrivileged = false ∧
      engine.castOne 0 raise = .ok (⟨true, "Energy level increased by 10%.", none⟩, next) ∧
      engine.reality.energy = 250.0 ∧ next.reality.energy = 200.0 ∧
      ¬ engine.reality.energy ≤ next.reality.energy ∧
      still.isPrivileged = false ∧
      (engine.castOne 0 still).map Prod.fst =
        .ok ⟨true, "Entropy level decreased by 0%.", none⟩ := by
  intro created raise still
  have facts : ((new {} (.ofSeed 0)).performAll [(0, .cast [created])] >>= fun engine =>
      (engine.castOne 0 raise).map fun cast =>
        (cast.1, engine.reality.energy, cast.2.reality.energy,
          (engine.castOne 0 still).map Prod.fst)) =
      .ok (⟨true, "Energy level increased by 10%.", none⟩, 250.0, 200.0,
        .ok ⟨true, "Entropy level decreased by 0%.", none⟩) := by decide +kernel
  obtain ⟨engine, ran, told⟩ := Fault.bind_eq_ok.1 facts
  cases one : engine.castOne 0 raise with
  | error fault =>
    rw [one] at told
    cases told
  | ok cast =>
    obtain ⟨verdict, next⟩ := cast
    rw [one] at told
    obtain ⟨rfl, levels⟩ := Prod.mk.inj (Except.ok.inj told)
    obtain ⟨before, levels⟩ := Prod.mk.inj levels
    obtain ⟨after, kept⟩ := Prod.mk.inj levels
    refine ⟨engine, next, ran, rfl, one, before, after, ?_, rfl, kept⟩
    rw [before, after]
    decide

end Engine

end Spellcraft
