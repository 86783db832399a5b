import Spellcraft.Proofs.Engine.Firing

set_option autoImplicit false

namespace Spellcraft.Engine

def Relogged (left right : Engine) : Prop :=
  ∃ events, right = { left with events }

theorem Relogged.fire {left right next : Engine} {task : Task} (relogged : left.Relogged right)
    (fired : left.fire task = .ok next) :
    ∃ other, right.fire task = .ok other ∧ next.Relogged other := by
  obtain ⟨events, rfl⟩ := relogged
  cases task with
  | expireEffect id =>
    rw [fire_expireEffect] at fired
    cases fired
    exact ⟨_, fire_expireEffect _ id, _, rfl⟩
  | halveProbability =>
    cases fired
    exact ⟨_, rfl, _, rfl⟩
  | normalizeTime =>
    obtain ⟨timeSpeed, held, changed⟩ := Fault.bind_eq_ok.1 fired
    simp only [Engine.fire, held, Fault.ok_bind]
    split at changed
    next moved =>
      cases changed
      exact ⟨_, if_pos moved, _, rfl⟩
    next still =>
      cases changed
      exact ⟨_, if_neg still, _, rfl⟩

theorem Relogged.tick {left right last : Engine} {now : UInt64} {count : Nat}
    (relogged : left.Relogged right) (ticked : left.tick now = .ok (count, last)) :
    ∃ other, right.tick now = .ok (count, other) ∧ last.Relogged other := by
  obtain ⟨fired, middle, run, rfl, rfl⟩ := tick_eq_ok.1 ticked
  obtain ⟨rfl, batch⟩ := runDue_eq_ok.1 run
  obtain ⟨events, rfl⟩ := relogged
  have forward : (left.forward now).Relogged (forward { left with events } now) := ⟨events, rfl⟩
  obtain ⟨other, rerun, later, rfl⟩ :=
    Fault.foldlM_lift (fun _ _ _ _ relogged fired => relogged.fire fired) forward batch
  have other_run := runDue_eq_ok.2 ⟨rfl, rerun⟩
  exact ⟨_, tick_eq_ok.2 ⟨_, _, other_run, rfl, rfl⟩, _, rfl⟩

end Spellcraft.Engine
