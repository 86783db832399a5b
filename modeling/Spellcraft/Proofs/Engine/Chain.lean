import Spellcraft.Proofs.Engine.Operation

set_option autoImplicit false

namespace Spellcraft

def Spell.applied (spell : Spell) (verdict : Verdict) : Event :=
  .spellApplied spell.focus spell.shift.signed verdict.message

def Spell.rejected (spell : Spell) (verdict : Verdict) : Event :=
  .spellRejected spell.focus spell.shift.signed verdict.feedback verdict.message

namespace Engine

inductive Accepts (now : UInt64) : Engine → List Spell → List Verdict → Engine → Prop where
  | nil (engine : Engine) : Accepts now engine [] [] engine
  | cons {engine next last : Engine} {spell : Spell} {others : List Spell} {verdict : Verdict}
      {verdicts : List Verdict} (one : engine.castOne now spell = .ok (verdict, next))
      (accepted : verdict.success = true) (rest : Accepts now next others verdicts last) :
      Accepts now engine (spell :: others) (verdict :: verdicts) last

variable {engine middle next last : Engine} {now : UInt64} {spell : Spell} {spells : List Spell}
  {verdict : Verdict} {verdicts : List Verdict}

theorem castOne_granted (cast : engine.castOne now spell = .ok (verdict, next))
    (accepted : verdict.success = true) :
    ∃ outcome reality, engine.reality.cast engine.laws spell = .ok (outcome, reality) ∧
      outcome.verdict = verdict ∧
      next = { engine with
        reality := { reality with
          effects := reality.effects ++ outcome.begun now engine.ids.next spell.anchor }
        timeline := engine.timeline.scheduleAll (outcome.tasks now engine.ids.next)
        ids := { engine.ids with used := engine.ids.used + outcome.effect.toList.length }
        events := engine.events ++ [spell.applied verdict] } := by
  obtain ⟨⟨outcome, reality⟩, decided, rest⟩ := Fault.bind_eq_ok.1 cast
  by_cases granted : outcome.verdict.success = true
  · simp only [granted, if_true, Fault.pure_eq_ok, Except.ok.injEq, Prod.mk.injEq] at rest
    obtain ⟨rfl, rfl⟩ := rest
    rw [settle_eq]
    exact ⟨outcome, reality, decided, rfl, rfl⟩
  · simp only [granted] at rest
    cases rest
    exact absurd accepted granted

theorem castOne_accepted (cast : engine.castOne now spell = .ok (verdict, next))
    (accepted : verdict.success = true) :
    next.events = engine.events ++ [spell.applied verdict] := by
  obtain ⟨outcome, reality, -, -, rfl⟩ := castOne_granted cast accepted
  rfl

theorem castOne_refused (cast : engine.castOne now spell = .ok (verdict, next))
    (refused : verdict.success = false) :
    next = { engine with
      reality := { engine.reality with lastFocus := some spell.focus }
      events := engine.events ++ [spell.rejected verdict] } := by
  obtain ⟨⟨outcome, reality⟩, decided, rest⟩ := Fault.bind_eq_ok.1 cast
  by_cases granted : outcome.verdict.success = true
  · simp only [granted, if_true] at rest
    cases rest
    simp [granted] at refused
  · simp only [granted] at rest
    cases rest
    rw [Reality.cast_refused decided refused]
    rfl

theorem Accepts.cast (accepts : engine.Accepts now spells verdicts last) (others : List Spell) :
    engine.cast now (spells ++ others) = last.cast now others := by
  induction accepts with
  | nil => rfl
  | cons one accepted rest ih =>
    rw [List.cons_append, Engine.cast, one, Fault.ok_bind]
    simpa [accepted] using ih

theorem Accepts.whole (accepts : engine.Accepts now spells verdicts last) :
    engine.cast now spells = .ok (.accepted .allCast, last) := by
  simpa [Engine.cast] using accepts.cast []

theorem Accepts.events (accepts : engine.Accepts now spells verdicts last) :
    last.events = engine.events ++ List.zipWith Spell.applied spells verdicts := by
  induction accepts with
  | nil => simp
  | cons one accepted rest ih =>
    rw [ih, castOne_accepted one accepted, List.zipWith_cons_cons, List.append_assoc]
    rfl

theorem Accepts.cast_refused (accepts : engine.Accepts now spells verdicts middle)
    (one : middle.castOne now spell = .ok (verdict, last)) (refused : verdict.success = false)
    (others : List Spell) : engine.cast now (spells ++ spell :: others) = .ok (verdict, last) := by
  rw [accepts.cast, Engine.cast, one, Fault.ok_bind]
  simp [refused]

-- Every chain is accepted as a whole or has a first spell that is not.
theorem accepts_or_refused (range : 0.0 ≤ engine.laws.privilegedEntropyCeiling) (now : UInt64)
    (spells : List Spell) :
    (∃ verdicts last, engine.Accepts now spells verdicts last) ∨
    ∃ before spell after verdicts middle verdict last,
      spells = before ++ spell :: after ∧ engine.Accepts now before verdicts middle ∧
      middle.castOne now spell = .ok (verdict, last) ∧ verdict.success = false := by
  induction spells generalizing engine with
  | nil => exact .inl ⟨[], engine, .nil engine⟩
  | cons spell others ih =>
    obtain ⟨verdict, next, one⟩ := castOne_ok range now spell
    by_cases accepted : verdict.success = true
    · have laws := (castOne_onward one).laws
      obtain ⟨verdicts, last, rest⟩ | ⟨before, second, after, verdicts, middle, other, last, rfl,
        rest, refusal⟩ := @ih next (by rwa [laws])
      · exact .inl ⟨verdict :: verdicts, last, .cons one accepted rest⟩
      · exact .inr ⟨spell :: before, second, after, verdict :: verdicts, middle, other, last, rfl,
          .cons one accepted rest, refusal⟩
    · have refused : verdict.success = false := by simpa using accepted
      exact .inr ⟨[], spell, others, [], engine, verdict, next, rfl, .nil engine, one, refused⟩

theorem cast_append (engine : Engine) (now : UInt64) (first second : List Spell) :
    engine.cast now (first ++ second) = do
      let (verdict, middle) ← engine.cast now first
      if verdict.success then middle.cast now second else return (verdict, middle) := by
  induction first generalizing engine with
  | nil => rfl
  | cons spell others ih =>
    simp only [List.cons_append, Engine.cast]
    cases engine.castOne now spell with
    | error fault => rfl
    | ok result =>
      obtain ⟨verdict, next⟩ := result
      simp only [Fault.ok_bind]
      by_cases accepted : verdict.success = true
      · simp only [accepted, if_true, ih]
      · simp [accepted]

theorem chain_stops (engine : Engine) (range : 0.0 ≤ engine.laws.privilegedEntropyCeiling)
    (now : UInt64) :
    (∀ spells,
      (∃ verdicts last, engine.Accepts now spells verdicts last ∧
        engine.cast now spells = .ok (.accepted .allCast, last) ∧
        last.events = engine.events ++ List.zipWith Spell.applied spells verdicts) ∨
      ∃ before spell after verdicts middle verdict last,
        spells = before ++ spell :: after ∧
        engine.Accepts now before verdicts middle ∧
        middle.castOne now spell = .ok (verdict, last) ∧ verdict.success = false ∧
        engine.cast now before = .ok (.accepted .allCast, middle) ∧
        last.laws = middle.laws ∧ last.timeline = middle.timeline ∧ last.ids = middle.ids ∧
        last.reality = { middle.reality with lastFocus := some spell.focus } ∧
        last.events = engine.events ++ List.zipWith Spell.applied before verdicts ++
          [spell.rejected verdict] ∧
        ∀ others, engine.cast now (before ++ spell :: others) = .ok (verdict, last)) ∧
    ∀ first second, engine.cast now (first ++ second) = do
      let (verdict, middle) ← engine.cast now first
      if verdict.success then middle.cast now second else return (verdict, middle) := by
  refine ⟨fun spells => ?_, cast_append engine now⟩
  have whole {spells : List Spell} {verdicts : List Verdict} {last : Engine}
      (accepts : engine.Accepts now spells verdicts last) :
      engine.cast now spells = .ok (.accepted .allCast, last) := by
    simpa [Engine.cast] using accepts.cast []
  obtain ⟨verdicts, last, accepts⟩ | ⟨before, spell, after, verdicts, middle, verdict, last, parts,
    accepts, one, refused⟩ := accepts_or_refused range now spells
  · exact .inl ⟨verdicts, last, accepts, whole accepts, accepts.events⟩
  · have stopped := castOne_refused one refused
    have events := congrArg Engine.events stopped
    rw [accepts.events] at events
    refine .inr ⟨before, spell, after, verdicts, middle, verdict, last, parts, accepts, one,
      refused, whole accepts, ?_, ?_, ?_, ?_, events, accepts.cast_refused one refused⟩
    all_goals rw [stopped]

theorem chain_stops_refused :
    let plain (focus : Focus) (shift : Shift) : Spell :=
      ⟨focus, .ofKind .caster, shift, 0, "", false, true, false, []⟩
    let reality : Reality := { energy := 5.0, probability := 0.0 / 0.0 }
    let engine := Engine.ofParts {} (.ofSeed 0) reality [⟨50, .halveProbability⟩]
    let strained := plain .probability ⟨.increase, 10⟩
    let drained := plain .energy ⟨.decrease, 30⟩
    let unmet := plain .entropy ⟨.increase, 1⟩
    0.0 ≤ engine.laws.privilegedEntropyCeiling ∧
    ∃ before spell after verdicts middle verdict last,
      [strained, drained, unmet] = before ++ spell :: after ∧
      engine.Accepts 10 before verdicts middle ∧
      middle.castOne 10 spell = .ok (verdict, last) ∧ verdict.success = false ∧
      engine.cast 10 before = .ok (.accepted .allCast, middle) ∧
      last.laws = middle.laws ∧ last.timeline = middle.timeline ∧ last.ids = middle.ids ∧
      last.reality = { middle.reality with lastFocus := some spell.focus } ∧
      last.events = engine.events ++ List.zipWith Spell.applied before verdicts ++
        [spell.rejected verdict] ∧
      ∀ others, engine.cast 10 (before ++ spell :: others) = .ok (verdict, last) := by
  intro plain reality engine strained drained unmet
  have range : 0.0 ≤ engine.laws.privilegedEntropyCeiling := by decide
  refine ⟨range, ?_⟩
  rcases (chain_stops engine range 10).1 [strained, drained, unmet] with
    ⟨verdicts, last, -, granted, -⟩ | stopped
  · have refused : (engine.cast 10 [strained, drained, unmet]).map Prod.fst =
        .ok (.refused .energyBelowZero) := by decide +kernel
    rw [granted] at refused
    cases refused
  · exact stopped

end Engine

end Spellcraft
