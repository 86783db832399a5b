import Spellcraft.Proofs.Caster.Finite
import Spellcraft.Proofs.Json.Accuracy

set_option autoImplicit false

namespace Spellcraft.Caster

open Number (toRat)
open Json (readAs isBrief)

theorem session_reread (settings : Settings) (finite : settings.laws.IsFinite)
    (consistent : settings.laws.Consistent) (ids : IdSupply) (actions : List (UInt64 × Action))
    (ordinary : ∀ entry ∈ actions, entry.2.Ordinary) (savedAt : UInt64) :
    ∃ course loaded,
      (Course.start (.new settings ids)).run settings actions = .ok course ∧
      Snapshot.ofFileText? (Snapshot.capture course.caster.session savedAt).fileText =
        some loaded ∧
      loaded.restore = .ok (course.caster.session.mapReals readAs) ∧
      (course.caster.session.mapReals readAs = course.caster.session ↔
        course.caster.session.ReadsBack) ∧
      ∀ x ∈ course.caster.session.reality.reals,
        (readAs x).isFinite = true ∧
        |toRat (readAs x) - toRat x| ≤ |toRat x| / 2 ^ 50 + 2 ^ (-1073 : Int) ∧
        (isBrief x = true → readAs x = x) := by
  obtain ⟨course, ran, numbers⟩ := new_run_finite finite consistent ids ordinary
  refine ⟨course, _, ran, Snapshot.ofFileText?_fileText _,
    Snapshot.restore_finite numbers savedAt, ?_,
    fun x member => ⟨?_, Json.readAs_near (numbers x member), fun brief => ?_⟩⟩
  · rw [Session.mapReals_eq_self_iff]
    refine forall₂_congr fun x member => ?_
    rw [Json.readsBack_iff, and_iff_right (numbers x member)]
  · obtain ⟨-, -, -, -, read⟩ := Json.readAs_spec (numbers x member)
    exact read
  · exact (Json.readsBack_iff.1 (Json.readsBack_of_isBrief brief)).2

theorem session_reread_override :
    let settings : Settings := {}
    let actions : List (UInt64 × Action) :=
      [(20, .engine (.override .time 0.3)), (30, .regenerate), (40, .tick)]
    (settings.laws.IsFinite ∧ settings.laws.Consistent ∧ ∀ entry ∈ actions, entry.2.Ordinary) ∧
      ∃ course loaded,
        (Course.start (.new settings (.ofSeed 0))).run settings actions = .ok course ∧
        Snapshot.ofFileText? (Snapshot.capture course.caster.session 50).fileText =
          some loaded ∧
        loaded.restore = .ok (course.caster.session.mapReals readAs) ∧
        (course.caster.session.mapReals readAs = course.caster.session ↔
          course.caster.session.ReadsBack) ∧
        ∀ x ∈ course.caster.session.reality.reals,
          (readAs x).isFinite = true ∧
          |toRat (readAs x) - toRat x| ≤ |toRat x| / 2 ^ 50 + 2 ^ (-1073 : Int) ∧
          (isBrief x = true → readAs x = x) := by
  intro settings actions
  have consistent : settings.laws.Consistent := ⟨by decide, by decide⟩
  have held : (0.3 : Float).isFinite = true := by decide
  have ordinary : ∀ entry ∈ actions, entry.2.Ordinary := by
    simp [actions, Action.Ordinary, Engine.Operation.Within, held]
  exact ⟨⟨default_isFinite, consistent, ordinary⟩,
    session_reread settings default_isFinite consistent (.ofSeed 0) actions ordinary 50⟩

-- A single spell of fourteen percent leaves a time speed that is restored as its neighbour.
theorem session_reread_hastened :
    let script := "focus: Time\nanchor: Self\nshift: +14%\ncost: 1E\nintent: \"x\"\nseal"
    let actions : List (UInt64 × Action) := [(0, .cast script)]
    (∀ entry ∈ actions, entry.2.Ordinary) ∧
      ∃ course loaded restored,
        (Course.start (.new {} (.ofSeed 0))).run {} actions = .ok course ∧
        Snapshot.ofFileText? (Snapshot.capture course.caster.session 0).fileText = some loaded ∧
        loaded.restore = .ok restored ∧
        course.caster.session.reality.timeSpeed = 1.1400000000000001 ∧
        restored.reality.timeSpeed = 1.14 ∧
        restored.reality.timeSpeed ≠ course.caster.session.reality.timeSpeed := by
  intro script actions
  have ordinary : ∀ entry ∈ actions, entry.2.Ordinary := by simp [actions, Action.Ordinary]
  have consistent : ({} : Settings).laws.Consistent := ⟨by decide, by decide⟩
  obtain ⟨course, ran, numbers⟩ := new_run_finite default_isFinite consistent (.ofSeed 0) ordinary
  have speeds : ((Course.start (.new {} (.ofSeed 0))).run {} actions).map
      (fun course => course.caster.session.reality.timeSpeed) = .ok 1.1400000000000001 := by
    decide +kernel
  rw [ran] at speeds
  have speed : course.caster.session.reality.timeSpeed = 1.1400000000000001 :=
    Except.ok.inj speeds
  have read : readAs 1.1400000000000001 = 1.14 := by decide +kernel
  have moved : (course.caster.session.mapReals readAs).reality.timeSpeed = 1.14 := by
    rw [← read, ← speed]
    rfl
  refine ⟨ordinary, course, _, _, ran, Snapshot.ofFileText?_fileText _,
    Snapshot.restore_finite numbers 0, speed, moved, ?_⟩
  rw [moved, speed]
  decide

end Spellcraft.Caster
