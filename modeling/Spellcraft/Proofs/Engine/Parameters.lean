import Spellcraft.Proofs.Engine.Operation

set_option autoImplicit false

namespace Spellcraft

/-- What every writer of the parameters restores, when only some spells are cast and only some
values are set. -/
structure Laws.Preserve (laws : Laws) (casts : Spell → Prop) (sets : Focus → Float → Prop)
    (holds : Reality → Prop) : Prop where
  -- Nothing but the parameters matters.
  alike : ∀ {left right : Reality}, holds left → left.get = right.get → holds right
  cast : ∀ {spell : Spell} {reality next : Reality} {outcome : Outcome}, casts spell →
    reality.cast laws spell = .ok (outcome, next) → holds reality → holds next
  halve : ∀ {reality : Reality}, holds reality →
    holds { reality with probability := reality.probability / 2.0 }
  normalize : ∀ {reality : Reality}, laws.normalTimeMin ≤ laws.normalTimeMax → holds reality →
    holds { reality with
      timeSpeed := Number.confine laws.normalTimeMin laws.normalTimeMax reality.timeSpeed }
  set : ∀ {reality : Reality} {focus : Focus} {value : Float}, sets focus value → holds reality →
    holds (reality.set focus
      (Number.confine (Engine.overrideRange focus).1 (Engine.overrideRange focus).2 value))

namespace Engine

def Operation.Within (casts : Spell → Prop) (sets : Focus → Float → Prop) : Operation → Prop
  | .cast spells => ∀ spell ∈ spells, casts spell
  | .override focus value => sets focus value
  | .runDue | .sweep | .tick | .setDimensions _ | .drain => True

theorem Operation.Within.restrict {casts : Spell → Prop} {sets : Focus → Float → Prop}
    {operation : Operation} (casting : operation.Within casts fun _ _ => True)
    (setting : operation.Within (fun _ => True) sets) : operation.Within casts sets := by
  cases operation with
  | cast spells => exact casting
  | override focus value => exact setting
  | runDue | sweep | tick | setDimensions | drain => trivial

theorem Operation.Within.imp {casts others : Spell → Prop} {sets : Focus → Float → Prop}
    {operation : Operation} (within : operation.Within casts sets)
    (implies : ∀ spell, casts spell → others spell) : operation.Within others sets := by
  cases operation with
  | cast spells => exact fun spell member => implies spell (within spell member)
  | override focus value => exact within
  | runDue | sweep | tick | setDimensions | drain => trivial

def performAll (steps : List (UInt64 × Operation)) (engine : Engine) : Except Fault Engine :=
  steps.foldlM (fun engine (now, operation) => Prod.snd <$> engine.perform now operation) engine

variable {engine next last : Engine} {now : UInt64} {casts : Spell → Prop}
  {sets : Focus → Float → Prop} {holds : Reality → Prop}

theorem performs_iff {operation : Operation} :
    Prod.snd <$> engine.perform now operation = .ok next ↔
      ∃ answer, engine.perform now operation = .ok (answer, next) := by
  cases engine.perform now operation with
  | error fault => simp [Functor.map, Except.map]
  | ok performed => simp [Functor.map, Except.map, Prod.ext_iff]

theorem fire_preserves {task : Task} (preserve : engine.laws.Preserve casts sets holds)
    (fired : engine.fire task = .ok next) (before : holds engine.reality) : holds next.reality := by
  cases task with
  | expireEffect id =>
    rw [fire_expireEffect] at fired
    cases fired
    exact preserve.alike before rfl
  | halveProbability =>
    cases fired
    exact preserve.halve before
  | normalizeTime =>
    obtain ⟨timeSpeed, held, changed⟩ := Fault.bind_eq_ok.1 fired
    rw [Reality.confine?] at held
    split at held
    next range =>
      cases held
      split at changed
      · cases changed
        exact preserve.normalize range before
      · cases changed
        exact before
    next => cases held

theorem runDue_preserves {count : Nat} (preserve : engine.laws.Preserve casts sets holds)
    (run : engine.runDue now = .ok (count, next)) (before : holds engine.reality) :
    holds next.reality := by
  have kept (task : Task) (_ : task ∈ engine.timeline.due now) (state next : Engine)
      (held : state.laws = engine.laws ∧ holds state.reality) (fired : state.fire task = .ok next) :
      next.laws = engine.laws ∧ holds next.reality :=
    ⟨(fire_kept fired).laws.trans held.1,
      fire_preserves (held.1.symm ▸ preserve) fired held.2⟩
  exact (Fault.foldlM_keeps kept (runDue_eq_ok.1 run).2 ⟨rfl, before⟩).2

theorem tick_preserves {count : Nat} (preserve : engine.laws.Preserve casts sets holds)
    (ticked : engine.tick now = .ok (count, next)) (before : holds engine.reality) :
    holds next.reality := by
  obtain ⟨_, middle, run, -, rfl⟩ := tick_eq_ok.1 ticked
  exact preserve.alike (runDue_preserves preserve run before) rfl

theorem castOne_parameters {spell : Spell} {verdict : Verdict}
    (cast : engine.castOne now spell = .ok (verdict, next)) :
    ∃ outcome reality, engine.reality.cast engine.laws spell = .ok (outcome, reality) ∧
      outcome.verdict = verdict ∧ reality.get = next.reality.get := by
  obtain ⟨⟨outcome, reality⟩, decided, rest⟩ := Fault.bind_eq_ok.1 cast
  simp only [settle_eq] at rest
  split at rest
  · cases rest
    exact ⟨outcome, reality, decided, rfl, rfl⟩
  · cases rest
    exact ⟨outcome, reality, decided, rfl, rfl⟩

theorem castOne_preserves {spell : Spell} {verdict : Verdict}
    (preserve : engine.laws.Preserve casts sets holds) (allowed : casts spell)
    (cast : engine.castOne now spell = .ok (verdict, next)) (before : holds engine.reality) :
    holds next.reality := by
  obtain ⟨outcome, reality, decided, -, same⟩ := castOne_parameters cast
  exact preserve.alike (preserve.cast allowed decided before) same

theorem cast_preserves {spells : List Spell} {verdict : Verdict}
    (preserve : engine.laws.Preserve casts sets holds) (allowed : ∀ spell ∈ spells, casts spell)
    (cast : engine.cast now spells = .ok (verdict, last)) (before : holds engine.reality) :
    holds last.reality := by
  induction spells generalizing engine with
  | nil =>
    cases cast
    exact before
  | cons spell others ih =>
    obtain ⟨first, next, one, ⟨-, rest⟩ | ⟨-, -, rfl⟩⟩ := cast_cons cast
    · have laws := (castOne_onward one).laws
      exact ih (laws.symm ▸ preserve)
        (fun other member => allowed other (List.mem_cons_of_mem _ member)) rest
        (castOne_preserves preserve (allowed spell (by simp)) one before)
    · exact castOne_preserves preserve (allowed spell (by simp)) one before

theorem perform_preserves {operation : Operation} {answer : Answer}
    (preserve : engine.laws.Preserve casts sets holds) (allowed : operation.Within casts sets)
    (performed : engine.perform now operation = .ok (answer, next))
    (before : holds engine.reality) : holds next.reality := by
  cases operation with
  | cast spells =>
    obtain ⟨⟨verdict, last⟩, cast, done⟩ := Fault.bind_eq_ok.1 performed
    cases done
    exact cast_preserves preserve allowed cast before
  | runDue =>
    obtain ⟨⟨count, last⟩, run, done⟩ := Fault.bind_eq_ok.1 performed
    cases done
    exact runDue_preserves preserve run before
  | tick =>
    obtain ⟨⟨count, last⟩, ticked, done⟩ := Fault.bind_eq_ok.1 performed
    cases done
    exact tick_preserves preserve ticked before
  | override focus value =>
    cases performed
    refine preserve.alike (preserve.set allowed before) ?_
    cases focus <;> rfl
  | sweep | setDimensions | drain =>
    cases performed
    exact preserve.alike before rfl

theorem performAll_preserves {steps : List (UInt64 × Operation)}
    (consistent : engine.laws.Consistent) (preserve : engine.laws.Preserve casts sets holds)
    (allowed : ∀ step ∈ steps, step.2.Within casts sets) (before : holds engine.reality) :
    ∃ last, engine.performAll steps = .ok last ∧ last.laws = engine.laws ∧ holds last.reality := by
  have total (step : UInt64 × Operation) (member : step ∈ steps) (state : Engine)
      (held : state.laws = engine.laws ∧ holds state.reality) :
      ∃ next, Prod.snd <$> state.perform step.1 step.2 = .ok next ∧
        next.laws = engine.laws ∧ holds next.reality := by
    obtain ⟨answer, next, performed⟩ :=
      perform_ok (held.1.symm ▸ consistent) step.1 step.2
    refine ⟨next, performs_iff.2 ⟨answer, performed⟩, ?_, ?_⟩
    · exact (perform_onward performed).laws.trans held.1
    · exact perform_preserves (held.1.symm ▸ preserve) (allowed step member) performed held.2
  exact Fault.foldlM_ok total ⟨rfl, before⟩

end Engine

end Spellcraft
