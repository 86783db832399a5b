import Spellcraft.Proofs.Engine.Chain
import Spellcraft.Proofs.Engine.Conservation
import Spellcraft.Proofs.Number.Order

set_option autoImplicit false

namespace Spellcraft

def Reality.lost (before after : Reality) : List Effect :=
  before.effects.filter fun effect => decide (effect ∉ after.effects)

def Reality.losses (before after : Reality) : List Event :=
  (before.lost after).map fun effect => .effectExpired effect.id

def Casting.event (casting : Casting) : Event :=
  if casting.verdict.success then casting.spell.applied casting.verdict
  else casting.spell.rejected casting.verdict

def Firing.events (firing : Firing) : List Event :=
  match firing.task with
  | .expireEffect _ => firing.before.losses firing.after
  | .halveProbability => [.probabilityCorrected firing.before.probability firing.after.probability]
  | .normalizeTime =>
    -- As doubles compare, what is not a number differs from itself.
    if firing.after.timeSpeed != firing.before.timeSpeed then
      [.timeNormalized firing.before.timeSpeed firing.after.timeSpeed]
    else []

theorem Reality.lost_filter {before after : Reality} {keep : Effect → Bool}
    (kept : after.effects = before.effects.filter keep) :
    before.lost after = before.effects.filter fun effect => !keep effect := by
  refine List.filter_congr fun effect member => ?_
  simp [kept, member]

theorem Reality.effects_of_lost_nil {before after : Reality} {keep : Effect → Bool}
    (kept : after.effects = before.effects.filter keep) (none_lost : before.lost after = []) :
    after.effects = before.effects := by
  rw [lost_filter kept, List.filter_eq_nil_iff] at none_lost
  rw [kept, List.filter_eq_self]
  intro effect member
  simpa using none_lost effect member

-- Identifiers are distinct, so that an end of one of them takes away one effect or none.
theorem Reality.losses_expired {before after : Reality} {id : EffectId}
    (distinct : (before.effects.map Effect.id).Nodup)
    (kept : after.effects = before.effects.filter fun effect => !decide (effect.id = id)) :
    before.losses after =
      if before.effects.any fun effect => decide (effect.id = id) then [.effectExpired id]
      else [] := by
  have ids : (before.lost after).map Effect.id =
      List.replicate ((before.effects.map Effect.id).count id) id := by
    rw [lost_filter kept, ← List.filter_eq, List.filter_map]
    simp [Function.comp_def]
  have told : before.losses after = ((before.lost after).map Effect.id).map .effectExpired := by
    rw [losses, List.map_map]
    rfl
  rw [told, ids, distinct.count]
  by_cases present : before.effects.any fun effect => decide (effect.id = id)
  · have member : id ∈ before.effects.map Effect.id := by simpa using present
    rw [if_pos present, if_pos member]
    rfl
  · have absent : id ∉ before.effects.map Effect.id := by simpa using present
    rw [if_neg present, if_neg absent]
    rfl

namespace Engine

variable {engine next last : Engine} {now : UInt64} {spells : List Spell} {verdict : Verdict}

theorem cast_events (cast : engine.cast now spells = .ok (verdict, last)) :
    last.events = engine.events ++ (castings now spells engine).map Casting.event := by
  induction spells generalizing engine with
  | nil =>
    cases cast
    simp [castings]
  | cons spell others ih =>
    obtain ⟨first, next, one, ⟨accepted, rest⟩ | ⟨refused, -, rfl⟩⟩ := cast_cons cast
    · rw [ih rest, castOne_accepted one accepted]
      simp [castings, one, accepted, Casting.event]
    · rw [castOne_refused one refused]
      simp [castings, one, refused, Casting.event]

def CastThrough (spells : List Spell) (cast : List Casting) (verdict : Verdict) : Prop :=
  (verdict.success = true ∧ cast.map Casting.spell = spells ∧
    ∀ casting ∈ cast, casting.verdict.success = true) ∨
  (verdict.success = false ∧ ∃ accepted refused others, cast = accepted ++ [refused] ∧
    spells = accepted.map Casting.spell ++ refused.spell :: others ∧
    refused.verdict = verdict ∧ ∀ casting ∈ accepted, casting.verdict.success = true)

theorem cast_castings (cast : engine.cast now spells = .ok (verdict, last)) :
    CastThrough spells (castings now spells engine) verdict := by
  induction spells generalizing engine with
  | nil =>
    cases cast
    exact .inl ⟨rfl, rfl, by simp [castings]⟩
  | cons spell others ih =>
    obtain ⟨first, next, one, ⟨accepted, rest⟩ | ⟨refused, rfl, rfl⟩⟩ := cast_cons cast
    · simp only [castings, one, accepted, if_true]
      rcases ih rest with ⟨success, whole, all⟩ | ⟨failure, before, refused, after, parts, split,
        same, all⟩
      · exact .inl ⟨success, by simp [whole], by simpa [accepted] using all⟩
      · exact .inr ⟨failure, _ :: before, refused, after, by rw [parts]; rfl, by rw [split]; rfl,
          same, by simpa [accepted] using all⟩
    · refine .inr ⟨refused, [], _, others, by simp [castings, one, refused]; rfl, rfl, rfl, by simp⟩

theorem fire_normalizeTime (fired : engine.fire .normalizeTime = .ok next) :
    let timeSpeed := Number.confine engine.laws.normalTimeMin engine.laws.normalTimeMax
      engine.reality.timeSpeed
    (timeSpeed = engine.reality.timeSpeed ∨ (timeSpeed != engine.reality.timeSpeed) = true) ∧
      next = { engine with
        reality := { engine.reality with timeSpeed }
        events := engine.events ++ if timeSpeed != engine.reality.timeSpeed then
          [.timeNormalized engine.reality.timeSpeed timeSpeed] else [] } := by
  obtain ⟨timeSpeed, held, changed⟩ := Fault.bind_eq_ok.1 fired
  rw [Reality.confine?] at held
  split at held
  next range =>
    cases held
    have moves := Number.confine_moves range engine.reality.timeSpeed
    refine ⟨moves, ?_⟩
    split at changed
    next moved =>
      cases changed
      simp only [if_pos moved]
      rfl
    next still =>
      cases changed
      have same := moves.resolve_right still
      rw [same] at still
      simp only [same, if_neg still, List.append_nil]
  next => cases held

theorem fire_events {task : Task} (distinct : (engine.reality.effects.map Effect.id).Nodup)
    (fired : engine.fire task = .ok next) :
    next.events = engine.events ++ Firing.events ⟨task, engine.reality, next.reality⟩ := by
  cases task with
  | expireEffect id =>
    rw [fire_expireEffect] at fired
    cases fired
    rw [Firing.events, Reality.losses_expired distinct rfl]
  | halveProbability =>
    cases fired
    rfl
  | normalizeTime =>
    obtain ⟨-, rfl⟩ := fire_normalizeTime fired
    rfl

theorem fire_silent {task : Task} (fired : engine.fire task = .ok next)
    (silent : Firing.events ⟨task, engine.reality, next.reality⟩ = []) :
    next.reality = engine.reality := by
  cases task with
  | expireEffect id =>
    have kept := fire_effects fired
    have same := Reality.effects_of_lost_nil kept (List.map_eq_nil_iff.1 silent)
    rw [fire_expireEffect] at fired
    cases fired
    simp only at same
    simp only [same]
  | halveProbability => cases silent
  | normalizeTime =>
    obtain ⟨same | moved, rfl⟩ := fire_normalizeTime fired
    · simp only [same]
    · rw [Firing.events, if_pos moved] at silent
      cases silent

theorem Fires.events {firings : List Firing} (fires : engine.Fires firings last)
    (distinct : (engine.reality.effects.map Effect.id).Nodup) :
    last.events = engine.events ++ firings.flatMap Firing.events := by
  induction fires with
  | nil => simp
  | cons one rest ih =>
    have left : (_ : List EffectId).Nodup := distinct.sublist
      ((fire_effects one ▸ List.filter_sublist).map Effect.id)
    rw [ih left, fire_events distinct one, List.flatMap_cons, List.append_assoc]

theorem Fires.silent {firings : List Firing} (fires : engine.Fires firings last)
    (silent : firings.flatMap Firing.events = []) : last.reality = engine.reality := by
  induction fires with
  | nil => rfl
  | cons one rest ih =>
    rw [List.flatMap_cons, List.append_eq_nil_iff] at silent
    rw [ih silent.2, fire_silent one silent.1]

theorem sweep_events (engine : Engine) (now : UInt64) :
    (engine.sweep now).2.events =
        engine.events ++ engine.reality.losses (engine.sweep now).2.reality ∧
      (engine.sweep now).1 = (engine.reality.lost (engine.sweep now).2.reality).length := by
  have lost : engine.reality.lost (engine.sweep now).2.reality =
      engine.reality.effects.filter (·.isExpired now) := by
    simpa using @Reality.lost_filter engine.reality (engine.sweep now).2.reality
      (fun effect => !effect.isExpired now) rfl
  rw [Reality.losses, lost]
  exact ⟨rfl, rfl⟩

theorem sweep_silent (silent : engine.reality.losses (engine.sweep now).2.reality = []) :
    (engine.sweep now).2.reality = engine.reality := by
  have same : (engine.sweep now).2.reality.effects = engine.reality.effects :=
    Reality.effects_of_lost_nil rfl (List.map_eq_nil_iff.1 silent)
  have swept : (engine.sweep now).2.reality =
      { engine.reality with effects := (engine.sweep now).2.reality.effects } := rfl
  rw [swept, same]

theorem cast_silent (cast : engine.cast now spells = .ok (verdict, last))
    (silent : castings now spells engine = []) : last.reality = engine.reality := by
  rcases cast_castings cast with ⟨-, none_cast, -⟩ | ⟨-, accepted, refused, _, parts, -⟩
  · rw [silent] at none_cast
    obtain rfl : [] = spells := none_cast
    cases cast
    rfl
  · simp [silent] at parts

/-- Whatever is done with an engine at a reading, its log tells of it. -/
structure Recorded (engine : Engine) (now : UInt64) : Prop where
  performs (consistent : engine.laws.Consistent) (operation : Operation) :
    ∃ answer next, engine.perform now operation = .ok (answer, next)
  -- The accepted spells in order, and behind them the one that was refused, if one was.
  cast {spells : List Spell} {verdict : Verdict} {last : Engine}
    (cast : engine.cast now spells = .ok (verdict, last)) :
    last.events = engine.events ++ (castings now spells engine).map Casting.event ∧
      CastThrough spells (castings now spells engine) verdict
  -- The due tasks in firing order, each with what it took away or moved.
  runDue {count : Nat} {last : Engine} (run : engine.runDue now = .ok (count, last)) :
    ∃ firings, (engine.forward now).Fires firings last ∧
      firings.map Firing.task = engine.timeline.due now ∧ count = firings.length ∧
      last.events = engine.events ++ firings.flatMap Firing.events
  sweep :
    (engine.sweep now).2.events =
        engine.events ++ engine.reality.losses (engine.sweep now).2.reality ∧
      (engine.sweep now).1 = (engine.reality.lost (engine.sweep now).2.reality).length
  tick {count : Nat} {last : Engine} (ticked : engine.tick now = .ok (count, last)) :
    ∃ fired middle, engine.runDue now = .ok (fired, middle) ∧ last = (middle.sweep now).2 ∧
      last.events = middle.events ++ middle.reality.losses last.reality ∧
      count = (engine.timeline.due now).length + (middle.reality.lost last.reality).length
  override (focus : Focus) (value : Float) :
    (engine.override focus value).2.events = engine.events ++
      [.parameterOverridden focus ((engine.override focus value).2.reality.get focus)]
  setDimensions (dimensions : Dimensions) :
    (engine.setDimensions dimensions).events = engine.events
  drain : engine.clearLog.events = []
  rebuild (laws : Laws) (ids : IdSupply) (pending : List PendingTask) :
    (ofParts laws ids engine.reality pending).events = []
  -- What adds nothing to the log changes nothing but the dimensions.
  silent {operation : Operation} {answer : Answer} {next : Engine}
    (performed : engine.perform now operation = .ok (answer, next))
    (silent : next.events = engine.events ∨ operation = .drain) :
    { next.reality with dimensions := engine.reality.dimensions } = engine.reality

theorem perform_silent {operation : Operation} {answer : Answer}
    (distinct : (engine.reality.effects.map Effect.id).Nodup)
    (performed : engine.perform now operation = .ok (answer, next))
    (silent : next.events = engine.events ∨ operation = .drain) :
    { next.reality with dimensions := engine.reality.dimensions } = engine.reality := by
  have unchanged (same : next.reality = engine.reality) :
      { next.reality with dimensions := engine.reality.dimensions } = engine.reality := by
    rw [same]
  have fired {count : Nat} {middle : Engine} (run : engine.runDue now = .ok (count, middle))
      (silent : middle.events = engine.events) : middle.reality = engine.reality := by
    obtain ⟨firings, fires, -⟩ := runDue_fires run
    have events := fires.events distinct
    exact fires.silent (List.self_eq_append_right.1 (silent.symm.trans events))
  cases operation with
  | cast spells =>
    obtain ⟨⟨verdict, last⟩, cast, done⟩ := Fault.bind_eq_ok.1 performed
    cases done
    have events := cast_events cast
    rw [silent.resolve_right (by simp), List.self_eq_append_right, List.map_eq_nil_iff] at events
    exact unchanged (cast_silent cast events)
  | runDue =>
    obtain ⟨⟨count, last⟩, run, done⟩ := Fault.bind_eq_ok.1 performed
    cases done
    exact unchanged (fired run (silent.resolve_right (by simp)))
  | sweep =>
    cases performed
    have events := (sweep_events engine now).1
    rw [silent.resolve_right (by simp), List.self_eq_append_right] at events
    exact unchanged (sweep_silent events)
  | tick =>
    obtain ⟨⟨count, last⟩, ticked, done⟩ := Fault.bind_eq_ok.1 performed
    obtain ⟨_, middle, run, -, rfl⟩ := tick_eq_ok.1 ticked
    cases done
    have events := (sweep_events middle now).1
    obtain ⟨added, kept⟩ : ∃ added, engine.events ++ added = middle.events :=
      (runDue_kept run).events
    rw [silent.resolve_right (by simp), ← kept, List.append_assoc, List.self_eq_append_right,
      List.append_eq_nil_iff] at events
    obtain ⟨rfl, swept⟩ := events
    rw [List.append_nil] at kept
    exact unchanged ((sweep_silent swept).trans (fired run kept.symm))
  | override focus value =>
    cases performed
    rcases silent with same | drained
    · simp [Engine.override, log] at same
    · cases drained
  | setDimensions dimensions =>
    cases performed
    rfl
  | drain =>
    cases performed
    rfl

theorem recorded (distinct : (engine.reality.effects.map Effect.id).Nodup) (now : UInt64) :
    engine.Recorded now where
  performs consistent operation := perform_ok consistent now operation
  cast cast := ⟨cast_events cast, cast_castings cast⟩
  runDue run := by
    obtain ⟨firings, fires, tasks, count⟩ := runDue_fires run
    exact ⟨firings, fires, tasks, count, fires.events distinct⟩
  sweep := sweep_events engine now
  tick ticked := by
    obtain ⟨fired, middle, run, rfl, rfl⟩ := tick_eq_ok.1 ticked
    obtain ⟨events, swept⟩ := sweep_events middle now
    obtain ⟨rfl, -⟩ := runDue_eq_ok.1 run
    refine ⟨_, middle, run, rfl, events, ?_⟩
    rw [swept, Timeline.due_eq_elapsed, List.length_map]
  override focus value := by cases focus <;> rfl
  setDimensions _ := rfl
  drain := rfl
  rebuild _ _ _ := rfl
  silent performed silent := perform_silent distinct performed silent

end Engine

namespace History

theorem log_records (laws : Laws) (ids : IdSupply) (turns : List (UInt64 × Turn))
    (history : History) (ran : (start laws ids).run turns = .ok history)
    (distinct : history.engine.ids.Distinct) (now : UInt64) : history.engine.Recorded now := by
  obtain ⟨accounts, -⟩ := run_conserved ran (start_conserved laws ids) distinct
  exact Engine.recorded (accounts.distinct.sublist (accounts.active.map Effect.id)) now

-- Of two normalizations only the first one moves anything, and the log is silent about the other
-- one.
theorem log_records_settled :
    let plain (focus : Focus) (amount : UInt32) : Spell :=
      ⟨focus, .ofKind .caster, ⟨.increase, amount⟩, 0, "", false, true, false, []⟩
    let chain : Engine.Operation :=
      .cast [plain .probability 150, plain .time 150, plain .time 190, plain .entropy 190]
    let turns : List (UInt64 × Turn) := [(10, .operate chain), (5010, .operate .runDue),
      (5010, .operate .drain), (5020, .rebuild {})]
    ∃ history,
      ((start {} (.ofSeed 0)).run turns = .ok history ∧ history.engine.ids.Distinct) ∧
      history.engine.Recorded 15010 ∧
      (history.engine.tick 15010).map (fun ticked => (ticked.1, ticked.2.events)) = .ok (5, [
        .effectExpired (history.engine.ids.draw 0), .effectExpired (history.engine.ids.draw 1),
        .timeNormalized 2.9 2.0, .effectExpired (history.engine.ids.draw 2)]) := by
  intro plain chain turns
  have facts : ((start {} (.ofSeed 0)).run turns).toOption.any (fun history => decide
      (history.engine.ids.Distinct ∧
        (history.engine.tick 15010).map (fun ticked => (ticked.1, ticked.2.events)) = .ok (5, [
          .effectExpired (history.engine.ids.draw 0), .effectExpired (history.engine.ids.draw 1),
          .timeNormalized 2.9 2.0, .effectExpired (history.engine.ids.draw 2)]))) = true := by
    decide +kernel
  cases ran : (start {} (.ofSeed 0)).run turns with
  | error fault =>
    rw [ran] at facts
    cases facts
  | ok history =>
    rw [ran] at facts
    obtain ⟨distinct, ticked⟩ := of_decide_eq_true facts
    exact ⟨history, ⟨rfl, distinct⟩, log_records {} (.ofSeed 0) turns history ran distinct 15010,
      ticked⟩

end History

end Spellcraft
