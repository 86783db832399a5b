import Spellcraft.Pricing
import Spellcraft.Proofs.Engine.Operation

set_option autoImplicit false

namespace Spellcraft

def Spell.essence (spell : Spell) : Spell :=
  { spell with declaredCost := 0, intent := "" }

/-- Reality without its dimensions, and with what was aimed at last only if that counts. -/
def Reality.core (aimed : Bool) (reality : Reality) : Reality :=
  { reality with
    lastFocus := if aimed then reality.lastFocus else none
    dimensions := ⟨0, 0⟩ }

theorem Rates.price_essence (rates : Rates) (spells : List Spell) :
    rates.price (spells.map Spell.essence) = rates.price spells := by
  have totals (total : UInt64) :
      (spells.map Spell.essence).foldl rates.addSpell total =
        spells.foldl rates.addSpell total := by
    rw [List.foldl_map]
    rfl
  rw [price, bill, price, bill, totals]

theorem Engine.cast_essence (engine : Engine) (now : UInt64) (spells : List Spell) :
    engine.cast now (spells.map Spell.essence) = engine.cast now spells := by
  induction spells generalizing engine with
  | nil => rfl
  | cons spell others ih =>
    have one : engine.castOne now spell.essence = engine.castOne now spell := rfl
    simp only [List.map_cons, cast, one, ih]

section Essence

variable {spells others : List Spell}
  (same : spells.map Spell.essence = others.map Spell.essence)

include same

theorem Spell.isEmpty_of_essence : spells.isEmpty = others.isEmpty := by
  simpa using congrArg List.isEmpty same

theorem Rates.price_of_essence (rates : Rates) : rates.price spells = rates.price others := by
  rw [← rates.price_essence, same, rates.price_essence]

theorem Engine.cast_of_essence (engine : Engine) (now : UInt64) :
    engine.cast now spells = engine.cast now others := by
  rw [← engine.cast_essence, same, engine.cast_essence]

end Essence

namespace Reality

theorem castPlain_core (laws : Laws) (focus : Focus) (shift : Int) (reality : Reality) :
    castPlain laws focus shift (reality.core true) =
      (castPlain laws focus shift reality).map id (core true) := by
  unfold castPlain
  split
  · rfl
  · cases focus with
    | energy =>
      simp only [castEnergy, core]
      split
      · rfl
      · rfl
    | probability => rfl
    | entropy =>
      simp only [castEntropy, core]
      split
      · rfl
      · split
        · rfl
        · rfl
    | time =>
      simp only [castTime]
      split
      · rfl
      · split
        · rfl
        · rfl

theorem castPrivileged_core (laws : Laws) (keyword : Option Keyword) (shift : Int)
    (reality : Reality) :
    castPrivileged laws keyword shift (reality.core true) =
      (castPrivileged laws keyword shift reality).map (Prod.map id (core true)) := by
  unfold castPrivileged
  split
  · rfl
  · simp only [core]
    cases confine? 0.0 laws.privilegedEntropyCeiling (reality.entropy + Number.ofInteger shift) with
    | error fault => rfl
    | ok entropy => rfl
  · rfl
  · rfl
  · rfl
  · rfl

-- A spell sets what was aimed at last, so that it counts after every one.
theorem cast_core (aimed : Bool) (laws : Laws) (spell : Spell) (reality : Reality) :
    (reality.core aimed).cast laws spell =
      (reality.cast laws spell).map (Prod.map id (core true)) := by
  have start : ({ reality.core aimed with lastFocus := some spell.focus } : Reality) =
      core true { reality with lastFocus := some spell.focus } := rfl
  simp only [cast, start]
  split
  · exact castPrivileged_core ..
  · exact congrArg Except.ok (castPlain_core ..)

end Reality

namespace Engine

def core (aimed : Bool) (engine : Engine) : Engine :=
  { engine with reality := engine.reality.core aimed, events := [] }

theorem castOne_core (aimed : Bool) (engine : Engine) (now : UInt64) (spell : Spell) :
    ((engine.core aimed).castOne now spell).map (Prod.map id (core true)) =
      (engine.castOne now spell).map (Prod.map id (core true)) := by
  have decided := engine.reality.cast_core aimed engine.laws spell
  simp only [castOne, core, decided]
  cases engine.reality.cast engine.laws spell with
  | error fault => rfl
  | ok pair =>
    obtain ⟨outcome, reality⟩ := pair
    simp only [settle_eq, Except.map, Prod.map_apply, id, Fault.ok_bind]
    cases outcome.verdict.success with
    | true => rfl
    | false => rfl

theorem fire_core (aimed : Bool) (engine : Engine) (task : Task) :
    ((engine.core aimed).fire task).map (core aimed) = (engine.fire task).map (core aimed) := by
  cases task with
  | expireEffect id =>
    rw [fire_expireEffect, fire_expireEffect]
    cases aimed <;> rfl
  | halveProbability => cases aimed <;> rfl
  | normalizeTime =>
    simp only [fire, core, Reality.core]
    cases Reality.confine? engine.laws.normalTimeMin engine.laws.normalTimeMax
        engine.reality.timeSpeed with
    | error fault => rfl
    | ok timeSpeed =>
      simp only [Fault.ok_bind]
      by_cases moved : (timeSpeed != engine.reality.timeSpeed) = true
      · simp only [moved, if_true]
        cases aimed <;> rfl
      · simp only [moved]
        cases aimed <;> rfl

theorem sweep_core (aimed : Bool) (engine : Engine) (now : UInt64) :
    Prod.map id (core aimed) ((engine.core aimed).sweep now) =
      Prod.map id (core aimed) (engine.sweep now) := by
  cases aimed <;> rfl

theorem override_core (aimed : Bool) (engine : Engine) (focus : Focus) (value : Float) :
    Prod.map id (core true) ((engine.core aimed).override focus value) =
      Prod.map id (core true) (engine.override focus value) := by
  cases focus <;> rfl

/-- Operations that differ in their authors' estimates and intents alone. -/
inductive Operation.Twin : Operation → Operation → Prop where
  | cast {spells others : List Spell}
      (same : spells.map Spell.essence = others.map Spell.essence) :
      Twin (.cast spells) (.cast others)
  | runDue : Twin .runDue .runDue
  | sweep : Twin .sweep .sweep
  | tick : Twin .tick .tick
  | override (focus : Focus) (value : Float) : Twin (.override focus value) (.override focus value)

def Operation.aims : Operation → Bool
  | .cast spells => !spells.isEmpty
  | .override _ _ => true
  | .runDue | .sweep | .tick | .setDimensions _ | .drain => false

theorem Operation.Twin.aims {operation other : Operation} (twin : operation.Twin other) :
    operation.aims = other.aims := by
  cases twin with
  | cast same => exact congrArg not (Spell.isEmpty_of_essence same)
  | runDue | sweep | tick | override => rfl

section Core

variable {left right : Engine} {aimed : Bool} (same : left.core aimed = right.core aimed)

include same

theorem castOne_of_core (now : UInt64) (spell : Spell) :
    (left.castOne now spell).map (Prod.map id (core true)) =
      (right.castOne now spell).map (Prod.map id (core true)) := by
  rw [← castOne_core aimed left, same, castOne_core]

theorem cast_of_core (now : UInt64) (spells : List Spell) :
    (left.cast now spells).map (Prod.map id (core (aimed || !spells.isEmpty))) =
      (right.cast now spells).map (Prod.map id (core (aimed || !spells.isEmpty))) := by
  induction spells generalizing left right aimed with
  | nil =>
    simpa [cast, Except.map] using same
  | cons spell others ih =>
    have aims : (aimed || !(spell :: others).isEmpty) = true := by simp
    rw [aims]
    apply Fault.map_bind_pair (castOne_of_core same now spell)
    intro verdict next last moved
    dsimp only
    split
    · exact ih moved
    · exact congrArg (fun state => Except.ok (verdict, state)) moved

theorem fire_of_core (task : Task) :
    (left.fire task).map (core aimed) = (right.fire task).map (core aimed) := by
  rw [← fire_core aimed left, same, fire_core]

theorem fireAll_of_core (tasks : List Task) :
    (tasks.foldlM fire left).map (core aimed) = (tasks.foldlM fire right).map (core aimed) := by
  induction tasks generalizing left right with
  | nil => exact congrArg Except.ok same
  | cons task rest ih =>
    rw [List.foldlM_cons, List.foldlM_cons]
    apply Fault.map_bind_congr (fire_of_core same task)
    intro next last moved
    exact ih moved

theorem runDue_of_core (now : UInt64) :
    (left.runDue now).map (Prod.map id (core aimed)) =
      (right.runDue now).map (Prod.map id (core aimed)) := by
  have agreed (engine : Engine) : (engine.core aimed).timeline = engine.timeline := rfl
  have due : left.timeline.due now = right.timeline.due now := by
    rw [← agreed left, same, agreed]
  have started : (left.forward now).core aimed = (right.forward now).core aimed := by
    have inward (engine : Engine) :
        (engine.forward now).core aimed = (engine.core aimed).forward now := rfl
    rw [inward, same, inward]
  rw [runDue, runDue, due]
  apply Fault.map_bind_congr (fireAll_of_core started (right.timeline.due now))
  intro next last moved
  exact congrArg (fun state => Except.ok ((right.timeline.due now).length, state)) moved

theorem sweep_of_core (now : UInt64) :
    Prod.map id (core aimed) (left.sweep now) = Prod.map id (core aimed) (right.sweep now) := by
  rw [← sweep_core, same, sweep_core]

theorem tick_of_core (now : UInt64) :
    (left.tick now).map (Prod.map id (core aimed)) =
      (right.tick now).map (Prod.map id (core aimed)) := by
  apply Fault.map_bind_pair (runDue_of_core same now)
  intro fired next last moved
  exact congrArg (fun after => Except.ok (fired + after.1, after.2)) (sweep_of_core moved now)

theorem perform_of_core {operation other : Operation} (twin : operation.Twin other)
    (now : UInt64) :
    (left.perform now operation).map (Prod.map id (core (aimed || operation.aims))) =
      (right.perform now other).map (Prod.map id (core (aimed || operation.aims))) := by
  cases twin with
  | @cast spells others essences =>
    simp only [perform, Operation.aims, cast_of_essence essences,
      Spell.isEmpty_of_essence essences]
    exact Fault.map_answer Answer.verdict id (cast_of_core same now others)
  | runDue =>
    rw [Operation.aims, Bool.or_false]
    exact Fault.map_answer Answer.count id (runDue_of_core same now)
  | tick =>
    rw [Operation.aims, Bool.or_false]
    exact Fault.map_answer Answer.count id (tick_of_core same now)
  | sweep =>
    have swept := sweep_of_core same now
    simp only [perform, Operation.aims, Bool.or_false]
    exact congrArg (fun pair => Except.ok (Answer.count pair.1, pair.2)) swept
  | override focus value =>
    have held : Prod.map id (core true) (left.override focus value) =
        Prod.map id (core true) (right.override focus value) := by
      rw [← override_core aimed left, same, override_core]
    simp only [perform, Operation.aims, Bool.or_true]
    exact congrArg (fun pair => Except.ok (Answer.held pair.1, pair.2)) held

end Core

end Engine

end Spellcraft
