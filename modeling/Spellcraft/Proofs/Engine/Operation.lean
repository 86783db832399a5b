import Spellcraft.Proofs.EffectId
import Spellcraft.Proofs.Engine.Casting
import Spellcraft.Proofs.Engine.Firing

set_option autoImplicit false

namespace Spellcraft.Engine

inductive Operation where
  | cast (spells : List Spell)
  | runDue
  | sweep
  | tick
  | override (focus : Focus) (value : Float)
  | setDimensions (dimensions : Dimensions)
  | drain
deriving DecidableEq

inductive Answer where
  | verdict (verdict : Verdict)
  | count (count : Nat)
  | held (value : Float)
  | drained (events : List Event)
  | done
deriving DecidableEq

def perform (engine : Engine) (now : UInt64) : Operation → Except Fault (Answer × Engine)
  | .cast spells => do
    let (verdict, next) ← engine.cast now spells
    return (.verdict verdict, next)
  | .runDue => do
    let (count, next) ← engine.runDue now
    return (.count count, next)
  | .sweep => .ok (.count (engine.sweep now).1, (engine.sweep now).2)
  | .tick => do
    let (count, next) ← engine.tick now
    return (.count count, next)
  | .override focus value =>
    .ok (.held (engine.override focus value).1, (engine.override focus value).2)
  | .setDimensions dimensions => .ok (.done, engine.setDimensions dimensions)
  | .drain => .ok (.drained engine.events, engine.clearLog)

variable {engine next last : Engine} {now : UInt64}

theorem cast_keeps {holds : Engine → Prop} {spells : List Spell} {verdict : Verdict}
    (kept : ∀ engine spell verdict next, holds engine →
      engine.castOne now spell = .ok (verdict, next) → holds next)
    (cast : engine.cast now spells = .ok (verdict, last)) (initial : holds engine) :
    holds last := by
  induction spells generalizing engine with
  | nil =>
    cases cast
    exact initial
  | cons spell others ih =>
    obtain ⟨first, next, one, ⟨-, rest⟩ | ⟨-, -, rfl⟩⟩ := cast_cons cast
    · exact ih rest (kept engine spell first next initial one)
    · exact kept engine spell first next initial one

structure Onward (engine next : Engine) : Prop where
  laws : next.laws = engine.laws
  ids : engine.ids.Onward next.ids

theorem Onward.trans {first second third : Engine} (left : first.Onward second)
    (right : second.Onward third) : first.Onward third :=
  ⟨right.laws.trans left.laws, left.ids.trans right.ids⟩

theorem Kept.onward (kept : engine.Kept next) : engine.Onward next :=
  ⟨kept.laws, by rw [kept.ids]; exact .refl _⟩

theorem Casts.onward {spell : Spell} {outcome : Outcome}
    (casts : engine.Casts now spell outcome next) : engine.Onward next :=
  ⟨casts.laws, casts.draw, by rw [casts.used]; exact Nat.le_add_right _ _⟩

theorem castOne_onward {spell : Spell} {verdict : Verdict}
    (cast : engine.castOne now spell = .ok (verdict, next)) : engine.Onward next := by
  obtain ⟨outcome, _, -, -, -, casts⟩ := castOne_casts cast
  exact casts.onward

theorem cast_onward {spells : List Spell} {verdict : Verdict}
    (cast : engine.cast now spells = .ok (verdict, last)) : engine.Onward last := by
  have kept (state : Engine) (spell : Spell) (verdict : Verdict) (next : Engine)
      (onward : engine.Onward state) (one : state.castOne now spell = .ok (verdict, next)) :
      engine.Onward next :=
    onward.trans (castOne_onward one)
  exact cast_keeps kept cast ⟨rfl, .refl _⟩

theorem cast_ok (range : 0.0 ≤ engine.laws.privilegedEntropyCeiling) (now : UInt64)
    (spells : List Spell) : ∃ verdict last, engine.cast now spells = .ok (verdict, last) := by
  induction spells generalizing engine with
  | nil => exact ⟨_, engine, rfl⟩
  | cons spell others ih =>
    obtain ⟨first, next, one⟩ := castOne_ok range now spell
    have laws := (castOne_onward one).laws
    simp only [Engine.cast, one, Fault.ok_bind]
    split
    · exact ih (by rwa [laws])
    · exact ⟨_, _, rfl⟩

theorem perform_onward {operation : Operation} {answer : Answer}
    (performed : engine.perform now operation = .ok (answer, next)) : engine.Onward next := by
  cases operation with
  | cast spells =>
    obtain ⟨⟨verdict, last⟩, cast, done⟩ := Fault.bind_eq_ok.1 performed
    cases done
    exact cast_onward cast
  | runDue =>
    obtain ⟨⟨count, last⟩, run, done⟩ := Fault.bind_eq_ok.1 performed
    cases done
    have onward := (runDue_kept run).onward
    exact ⟨onward.laws, onward.ids⟩
  | tick =>
    obtain ⟨⟨count, last⟩, ticked, done⟩ := Fault.bind_eq_ok.1 performed
    cases done
    have onward := (tick_kept ticked).onward
    exact ⟨onward.laws, onward.ids⟩
  | sweep | override | setDimensions | drain =>
    cases performed
    exact ⟨rfl, .refl _⟩

theorem perform_ok (consistent : engine.laws.Consistent) (now : UInt64) (operation : Operation) :
    ∃ answer next, engine.perform now operation = .ok (answer, next) := by
  cases operation with
  | cast spells =>
    obtain ⟨verdict, last, cast⟩ := cast_ok consistent.entropyRange now spells
    exact ⟨.verdict verdict, last, by simp [perform, cast]⟩
  | runDue =>
    obtain ⟨count, last, run⟩ : ∃ count last, engine.runDue now = .ok (count, last) :=
      runDue_ok fun _ => consistent.timeRange
    exact ⟨.count count, last, by simp [perform, run]⟩
  | tick =>
    obtain ⟨count, last, ticked⟩ : ∃ count last, engine.tick now = .ok (count, last) :=
      tick_ok fun _ => consistent.timeRange
    exact ⟨.count count, last, by simp [perform, ticked]⟩
  | sweep | override | setDimensions | drain => exact ⟨_, _, rfl⟩

end Spellcraft.Engine
