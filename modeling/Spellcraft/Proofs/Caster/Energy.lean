import Spellcraft.Proofs.Caster.Action

set_option autoImplicit false

namespace Spellcraft.Caster

def parts (caster : Caster) : Engine × Ledger × Rates :=
  (caster.engine, caster.ledger, caster.rates)

def ofParts : Engine × Ledger × Rates → Caster
  | (engine, ledger, rates) => { engine, ledger, rates }

inductive Deed where
  | act (action : Action)
  | reassemble
deriving DecidableEq

def Answer.paid : Answer → Nat
  | .report (.ok told) => if told.verdict.success then told.cost.toNat else 0
  | .report (.error _) | .compiled _ | .energy _ | .count _ | .engine _ | .resumed => 0

def Action.regained (caster : Caster) : Action → Nat
  | .regenerate => caster.ledger.regained
  | .compile _ | .cast _ | .castCompiled _ | .tick | .engine _ | .resume => 0

structure Tally where
  caster : Caster
  paid : Nat
  regained : Nat

namespace Tally

def start (caster : Caster) : Tally :=
  ⟨caster, 0, 0⟩

def step (tally : Tally) (settings : Settings) (now : UInt64) : Deed → Except Fault Tally
  | .act action => do
    let (answer, caster) ← tally.caster.perform settings now action
    return {
      caster := caster
      paid := tally.paid + answer.paid
      regained := tally.regained + action.regained tally.caster }
  | .reassemble => .ok { tally with caster := ofParts tally.caster.parts }

def run (tally : Tally) (settings : Settings) (deeds : List (UInt64 × Deed)) :
    Except Fault Tally :=
  deeds.foldlM (fun tally (now, deed) => tally.step settings now deed) tally

end Tally

variable {caster noted next : Caster} {settings : Settings} {now : UInt64}

structure Pays (caster : Caster) (paid regained : Nat) (next : Caster) : Prop where
  within : paid ≤ caster.ledger.energy.toNat
  energy : next.ledger.energy.toNat + paid = caster.ledger.energy.toNat + regained

theorem pays_nothing (same : next.ledger.energy = caster.ledger.energy) :
    caster.Pays 0 0 next :=
  ⟨Nat.zero_le _, by rw [same]⟩

theorem castCompiled_pays {compiled : Compiled} {report : CastReport}
    (done : caster.castCompiled now compiled = .ok (report, next)) :
    caster.Pays (Answer.report (.ok report)).paid 0 next := by
  by_cases affordable : caster.ledger.affords compiled.cost = true
  · simp only [castCompiled, affordable, if_true] at done
    obtain ⟨⟨verdict, engine⟩, -, rest⟩ := Fault.bind_eq_ok.1 done
    cases rest
    by_cases accepted : verdict.success = true
    · have spent := Ledger.spend_energy affordable
      simp only [Answer.paid, accepted, if_true]
      exact ⟨by omega, by simpa using spent⟩
    · simp only [Answer.paid, accepted]
      exact pays_nothing rfl
  · simp only [castCompiled, affordable] at done
    cases done
    exact pays_nothing rfl

theorem cast_pays {script : String} {result : Except ScriptError CastReport}
    (done : caster.cast now script = .ok (result, next)) :
    caster.Pays (Answer.report result).paid 0 next := by
  rw [Caster.cast] at done
  cases read : caster.compile script with
  | error error =>
    simp only [read] at done
    cases done
    exact pays_nothing rfl
  | ok pair =>
    obtain ⟨compiled, noted⟩ := pair
    simp only [read] at done
    obtain ⟨⟨report, last⟩, cast, rest⟩ := Fault.bind_eq_ok.1 done
    cases rest
    have pays := castCompiled_pays cast
    rw [compile_eq_ok read] at pays
    exact ⟨pays.within, pays.energy⟩

theorem perform_pays {action : Action} {answer : Answer} (follows : caster.Follows settings)
    (performed : caster.perform settings now action = .ok (answer, next)) :
    caster.Pays answer.paid (action.regained caster) next := by
  cases action with
  | compile script =>
    cases read : caster.compile script with
    | error error =>
      simp only [perform, read] at performed
      cases performed
      exact pays_nothing rfl
    | ok pair =>
      obtain ⟨compiled, noted⟩ := pair
      simp only [perform, read] at performed
      cases performed
      rw [compile_eq_ok read]
      exact pays_nothing rfl
  | cast script =>
    obtain ⟨⟨result, last⟩, cast, done⟩ := Fault.bind_eq_ok.1 performed
    cases done
    exact cast_pays cast
  | castCompiled compiled =>
    obtain ⟨⟨report, last⟩, cast, done⟩ := Fault.bind_eq_ok.1 performed
    cases done
    exact castCompiled_pays cast
  | regenerate =>
    cases performed
    exact ⟨Nat.zero_le _, Ledger.regenerate_energy follows.energy⟩
  | tick =>
    obtain ⟨⟨count, last⟩, ticked, done⟩ := Fault.bind_eq_ok.1 performed
    obtain ⟨⟨fired, engine⟩, -, rest⟩ := Fault.bind_eq_ok.1 ticked
    cases rest
    cases done
    exact pays_nothing rfl
  | engine operation =>
    obtain ⟨⟨engine_answer, engine⟩, -, rest⟩ := Fault.bind_eq_ok.1 performed
    cases rest
    exact pays_nothing rfl
  | resume =>
    obtain ⟨last, resumed, done⟩ := Fault.bind_eq_ok.1 performed
    obtain ⟨⟨count, settled⟩, ticked, rest⟩ := Fault.bind_eq_ok.1 resumed
    obtain ⟨⟨fired, engine⟩, -, ended⟩ := Fault.bind_eq_ok.1 ticked
    cases ended
    cases rest
    cases done
    -- The ledger is made again from its balance, within the same capacity.
    have ledger : Ledger.ofBalance settings.limits caster.session.balance = caster.ledger := by
      rw [← follows.limits]
      exact Ledger.ofBalance_balance follows.energy
    exact pays_nothing (congrArg Ledger.energy ledger)

theorem castCompiled_unaffordable {compiled : Compiled}
    (short : caster.ledger.energy < compiled.cost) :
    caster.castCompiled now compiled =
      .ok (⟨.refused (.unaffordable compiled.cost caster.ledger.energy), compiled.cost,
        caster.ledger.energy⟩, caster) := by
  have refused : caster.ledger.affords compiled.cost = false := by
    simpa [Ledger.affords] using short
  simp [castCompiled, refused]

theorem cast_unaffordable {script : String} {compiled : Compiled}
    (read : caster.compile script = .ok (compiled, noted))
    (short : caster.ledger.energy < compiled.cost) :
    caster.cast now script =
      .ok (.ok ⟨.refused (.unaffordable compiled.cost caster.ledger.energy), compiled.cost,
        caster.ledger.energy⟩,
        { caster with ledger := caster.ledger.noteDraft compiled.cost }) := by
  have same := compile_eq_ok read
  have energy : noted.ledger.energy = caster.ledger.energy := by
    rw [same]
    rfl
  have refused := @castCompiled_unaffordable noted now compiled (by rwa [energy])
  rw [energy] at refused
  rw [Caster.cast, read, ← same]
  dsimp only
  rw [refused]
  rfl

theorem cast_error {script : String} {error : ScriptError}
    (unread : Spell.ofScript script = .error error) :
    caster.cast now script = .ok (.error error, caster) := by
  simp only [Caster.cast, compile_error unread]

namespace Tally

structure Balanced (tally : Tally) (settings : Settings) : Prop where
  follows : tally.caster.Follows settings
  energy : tally.caster.ledger.energy.toNat + tally.paid =
    min settings.limits.initial.toNat settings.limits.capacity.toNat + tally.regained

theorem start_balanced (settings : Settings) (ids : IdSupply) :
    (start (.new settings ids)).Balanced settings := by
  refine ⟨new_follows settings ids, ?_⟩
  have energy := Ledger.min_toNat settings.limits.initial settings.limits.capacity
  simpa [start, Caster.new, Ledger.new, Ledger.ofBalance] using energy

theorem Balanced.step {tally : Tally} (consistent : settings.laws.Consistent)
    (balanced : tally.Balanced settings) (now : UInt64) (deed : Deed) :
    ∃ next, tally.step settings now deed = .ok next ∧ next.Balanced settings := by
  cases deed with
  | act action =>
    obtain ⟨answer, caster, performed⟩ := perform_ok consistent balanced.follows now action
    have pays := perform_pays balanced.follows performed
    have follows := (perform_steps balanced.follows performed).follows
    have before := balanced.energy
    have after := pays.energy
    have energy : caster.ledger.energy.toNat + (tally.paid + answer.paid) =
        min settings.limits.initial.toNat settings.limits.capacity.toNat +
          (tally.regained + action.regained tally.caster) := by omega
    exact ⟨_, by rw [Tally.step, performed]; rfl, follows, energy⟩
  | reassemble => exact ⟨_, rfl, balanced.follows, balanced.energy⟩

theorem Balanced.run {tally : Tally} (consistent : settings.laws.Consistent)
    (balanced : tally.Balanced settings) (deeds : List (UInt64 × Deed)) :
    ∃ last, tally.run settings deeds = .ok last ∧ last.Balanced settings :=
  Fault.foldlM_ok (fun entry _ _ held => held.step consistent entry.1 entry.2) balanced

end Tally

theorem energy_accounted (settings : Settings) (consistent : settings.laws.Consistent)
    (ids : IdSupply) (deeds : List (UInt64 × Deed)) :
    ∃ tally, (Tally.start (.new settings ids)).run settings deeds = .ok tally ∧
      let caster := tally.caster
      caster.ledger.energy ≤ settings.limits.capacity ∧
      caster.ledger.energy.toNat + tally.paid =
        min settings.limits.initial.toNat settings.limits.capacity.toNat + tally.regained ∧
      ∀ now,
        (∀ action, ∃ answer next, caster.perform settings now action = .ok (answer, next) ∧
          answer.paid ≤ caster.ledger.energy.toNat ∧
          next.ledger.energy.toNat + answer.paid =
            caster.ledger.energy.toNat + action.regained caster) ∧
        (∀ compiled, caster.ledger.energy < compiled.cost →
          caster.castCompiled now compiled =
            .ok (⟨.refused (.unaffordable compiled.cost caster.ledger.energy), compiled.cost,
              caster.ledger.energy⟩, caster)) ∧
        (∀ script compiled noted, caster.compile script = .ok (compiled, noted) →
          caster.ledger.energy < compiled.cost →
          caster.cast now script =
            .ok (.ok ⟨.refused (.unaffordable compiled.cost caster.ledger.energy), compiled.cost,
              caster.ledger.energy⟩,
              { caster with ledger := caster.ledger.noteDraft compiled.cost })) ∧
        ∀ script error, Spell.ofScript script = .error error →
          caster.compile script = .error error ∧
          caster.cast now script = .ok (.error error, caster) := by
  obtain ⟨tally, ran, balanced⟩ := (Tally.start_balanced settings ids).run consistent deeds
  have follows := balanced.follows
  have capacity := follows.energy
  rw [follows.limits] at capacity
  refine ⟨tally, ran, capacity, balanced.energy, fun now => ⟨fun action => ?_, fun compiled => ?_,
    fun script compiled noted => ?_, fun script error unread => ?_⟩⟩
  · obtain ⟨answer, next, performed⟩ := perform_ok consistent follows now action
    have pays := perform_pays follows performed
    exact ⟨answer, next, performed, pays.within, pays.energy⟩
  · exact castCompiled_unaffordable
  · exact cast_unaffordable
  · exact ⟨compile_error unread, cast_error unread⟩

theorem energy_accounted_reassembled :
    let settings : Settings := { limits := { capacity := 40, initial := 50, regenStep := 15 } }
    let rooted : Spell :=
      ⟨.entropy, .ofKind .zone, ⟨.increase, 5⟩, 0, "", true, true, true, [.kernelSpace]⟩
    let deeds : List (UInt64 × Deed) := [
      (10, .act (.castCompiled ⟨[rooted], 30⟩)), (10, .act (.castCompiled ⟨[rooted], 11⟩)),
      (20, .act .regenerate), (30, .reassemble), (30, .act (.compile "seal")),
      (20010, .act .tick)]
    settings.laws.Consistent ∧
    ∃ tally, (Tally.start (.new settings (.ofSeed 0))).run settings deeds = .ok tally ∧
      tally.paid = 30 ∧ tally.regained = 15 ∧
      tally.caster.ledger.energy ≤ settings.limits.capacity ∧
      tally.caster.ledger.energy.toNat + tally.paid =
        min settings.limits.initial.toNat settings.limits.capacity.toNat + tally.regained := by
  intro settings rooted deeds
  have consistent : settings.laws.Consistent := ⟨by decide, by decide⟩
  obtain ⟨tally, ran, within, energy, -⟩ := energy_accounted settings consistent (.ofSeed 0) deeds
  have sums : ((Tally.start (.new settings (.ofSeed 0))).run settings deeds).map
      (fun tally => (tally.paid, tally.regained)) = .ok (30, 15) := by decide +kernel
  rw [ran] at sums
  obtain ⟨paid, regained⟩ : tally.paid = 30 ∧ tally.regained = 15 := by
    simpa [Except.map] using sums
  exact ⟨consistent, tally, ran, paid, regained, within, energy⟩

end Spellcraft.Caster
