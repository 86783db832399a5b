import Spellcraft.Caster
import Spellcraft.Proofs.Engine.Coalescing
import Spellcraft.Proofs.Engine.Log

set_option autoImplicit false

namespace Spellcraft.Caster

theorem tick_eq_ok {caster next : Caster} {now : UInt64} {count : Nat} :
    caster.tick now = .ok (count, next) ↔
      ∃ engine, caster.engine.tick now = .ok (count, engine) ∧
        next = { caster with engine := engine.clearLog } := by
  rw [tick, Fault.bind_eq_ok]
  constructor
  · rintro ⟨⟨fired, engine⟩, ticked, done⟩
    cases done
    exact ⟨engine, ticked, rfl⟩
  · rintro ⟨engine, ticked, rfl⟩
    exact ⟨(count, engine), ticked, rfl⟩

-- All that several ticks leave otherwise than one is in the log.
theorem tick_tick {caster middle last once : Caster} {earlier later : UInt64}
    {first second count : Nat} (before : earlier ≤ later)
    (ticked : caster.tick earlier = .ok (first, middle))
    (again : middle.tick later = .ok (second, last))
    (single : caster.tick later = .ok (count, once)) : last = once := by
  obtain ⟨early, run, rfl⟩ := tick_eq_ok.1 ticked
  obtain ⟨late, rerun, rfl⟩ := tick_eq_ok.1 again
  obtain ⟨all, whole, rfl⟩ := tick_eq_ok.1 single
  have relogged : early.clearLog.Relogged early := ⟨early.events, rfl⟩
  obtain ⟨_, logged, events, rfl⟩ := relogged.tick rerun
  have same := Engine.tick_tick before run logged whole
  have early_kept := Engine.tick_kept run
  have late_kept := Engine.tick_kept logged
  have all_kept := Engine.tick_kept whole
  have engines : late.clearLog = all.clearLog := by
    simp only [Engine.clearLog, Engine.mk.injEq]
    exact ⟨late_kept.laws.trans (early_kept.laws.trans all_kept.laws.symm), same.reality,
      same.timeline, trivial, late_kept.ids.trans (early_kept.ids.trans all_kept.ids.symm)⟩
  rw [engines]

theorem tick_total {caster : Caster}
    (timeRange : caster.engine.laws.normalTimeMin ≤ caster.engine.laws.normalTimeMax)
    (now : UInt64) : ∃ count next, caster.tick now = .ok (count, next) := by
  obtain ⟨count, engine, ticked⟩ := Engine.tick_ok fun _ => timeRange
  exact ⟨count, _, tick_eq_ok.2 ⟨engine, ticked, rfl⟩⟩

theorem tick_timeRange {caster next : Caster} {now : UInt64} {count : Nat}
    (ticked : caster.tick now = .ok (count, next))
    (timeRange : caster.engine.laws.normalTimeMin ≤ caster.engine.laws.normalTimeMax) :
    next.engine.laws.normalTimeMin ≤ next.engine.laws.normalTimeMax := by
  obtain ⟨engine, run, rfl⟩ := tick_eq_ok.1 ticked
  have kept : engine.laws.normalTimeMin ≤ engine.laws.normalTimeMax :=
    Engine.tick_timeRange run timeRange
  exact kept

end Spellcraft.Caster
