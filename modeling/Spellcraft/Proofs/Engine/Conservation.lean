import Mathlib.Data.List.Count
import Mathlib.Data.List.Nodup
import Spellcraft.Proofs.Engine.History

set_option autoImplicit false

namespace Spellcraft

namespace Engine

/-- Every effect created so far is at work, or its end has been told once. -/
structure Accounts (engine : Engine) (past : List Event) (created : List Effect) : Prop where
  drawn : ∀ effect ∈ created, engine.ids.Drawn effect.id
  distinct : (created.map Effect.id).Nodup
  active : engine.reality.effects.Sublist created
  told : ∀ id, .effectExpired id ∈ past ++ engine.events → id ∈ created.map Effect.id
  ends : ∀ effect ∈ created, (past ++ engine.events).count (.effectExpired effect.id) =
    if effect ∈ engine.reality.effects then 0 else 1

structure Removes (engine : Engine) (keep : Effect → Bool) (next : Engine) : Prop where
  ids : next.ids = engine.ids
  effects : next.reality.effects = engine.reality.effects.filter keep
  events : ∃ added, next.events = engine.events ++ added ∧ ∀ id,
    added.count (.effectExpired id) =
      ((engine.reality.effects.filter fun effect => !keep effect).map Effect.id).count id

variable {engine next last : Engine} {past : List Event} {created : List Effect} {now : UInt64}

theorem removes_nothing {keep : Effect → Bool} (keeps : ∀ effect, keep effect = true)
    (ids : next.ids = engine.ids) (effects : next.reality.effects = engine.reality.effects)
    {added : List Event} (events : next.events = engine.events ++ added)
    (silent : ∀ id, .effectExpired id ∉ added) : engine.Removes keep next := by
  refine ⟨ids, ?_, added, events, fun id => ?_⟩
  · rw [effects, List.filter_eq_self.2 fun effect _ => keeps effect]
  · simp [keeps, List.count_eq_zero.2 (silent id)]

theorem Accounts.congr (accounts : engine.Accounts past created) {later : List Event}
    (ids : next.ids = engine.ids) (effects : next.reality.effects = engine.reality.effects)
    (events : later ++ next.events = past ++ engine.events) : next.Accounts later created := by
  obtain ⟨drawn, distinct, active, told, ends⟩ := accounts
  constructor
  · rwa [ids]
  · exact distinct
  · rwa [effects]
  · rwa [events]
  · rwa [events, effects]

-- Identifiers tell created effects apart, so an end that is told belongs to one effect.
theorem Accounts.count_ids (accounts : engine.Accounts past created) {some : List Effect}
    (part : some.Sublist created) {effect : Effect} (member : effect ∈ created) :
    (some.map Effect.id).count effect.id = if effect ∈ some then 1 else 0 := by
  have distinct : (some.map Effect.id).Nodup := accounts.distinct.sublist (part.map _)
  by_cases present : effect ∈ some
  · rw [if_pos present]
    exact List.count_eq_one_of_mem distinct (List.mem_map_of_mem present)
  · rw [if_neg present, List.count_eq_zero]
    intro found
    obtain ⟨other, inside, same⟩ := List.mem_map.1 found
    have equal := List.inj_on_of_nodup_map accounts.distinct (part.subset inside) member same
    exact present (equal ▸ inside)

theorem Accounts.removes {keep : Effect → Bool} (accounts : engine.Accounts past created)
    (removes : engine.Removes keep next) : next.Accounts past created := by
  obtain ⟨added, events, counts⟩ := removes.events
  have gone : (engine.reality.effects.filter fun effect => !keep effect).Sublist created :=
    List.filter_sublist.trans accounts.active
  constructor
  · rw [removes.ids]
    exact accounts.drawn
  · exact accounts.distinct
  · rw [removes.effects]
    exact List.filter_sublist.trans accounts.active
  · intro id found
    rw [events, ← List.append_assoc] at found
    rcases List.mem_append.1 found with old | new
    · exact accounts.told id old
    · rw [← List.count_pos_iff, counts, List.count_pos_iff] at new
      exact (gone.map Effect.id).subset new
  · intro effect member
    rw [events, ← List.append_assoc, List.count_append, accounts.ends effect member, counts,
      accounts.count_ids gone member, removes.effects]
    by_cases active : effect ∈ engine.reality.effects <;> cases kept : keep effect <;>
      simp [active, kept]

theorem fire_removes {task : Task} (distinct : (engine.reality.effects.map Effect.id).Nodup)
    (fired : engine.fire task = .ok next) :
    engine.Removes (fun effect => !task.ends effect) next := by
  cases task with
  | expireEffect id =>
    have effects := fire_effects fired
    rw [fire_expireEffect] at fired
    cases fired
    refine ⟨rfl, effects, _, rfl, fun other => ?_⟩
    -- No two effects at work share the identifier, so the one event tells of the one effect.
    have ended : (engine.reality.effects.filter fun effect =>
        !!(Task.expireEffect id).ends effect).map Effect.id =
          List.replicate ((engine.reality.effects.map Effect.id).count id) id := by
      rw [← List.filter_eq, List.filter_map]
      simp [Task.ends, Function.comp_def, eq_comm]
    have present : (engine.reality.effects.any fun effect => decide (effect.id = id)) =
        decide (id ∈ engine.reality.effects.map Effect.id) := by
      rw [Bool.eq_iff_iff]
      simp
    rw [ended, present, distinct.count, List.count_replicate]
    by_cases same : id = other
    · subst same
      by_cases member : id ∈ engine.reality.effects.map Effect.id <;> simp [member]
    · by_cases member : id ∈ engine.reality.effects.map Effect.id <;> simp [member, same]
  | halveProbability =>
    cases fired
    exact removes_nothing (by simp [Task.ends]) rfl rfl rfl (by simp)
  | normalizeTime =>
    obtain ⟨timeSpeed, -, changed⟩ := Fault.bind_eq_ok.1 fired
    split at changed
    · cases changed
      exact removes_nothing (by simp [Task.ends]) rfl rfl rfl (by simp)
    · cases changed
      exact removes_nothing (by simp [Task.ends]) rfl rfl (List.append_nil _).symm (by simp)

theorem sweep_removes (engine : Engine) (now : UInt64) :
    engine.Removes (fun effect => !effect.isExpired now) (engine.sweep now).2 := by
  refine ⟨rfl, rfl, _, rfl, fun id => ?_⟩
  have told (expired : List Effect) :
      (expired.map fun effect => Event.effectExpired effect.id).count (.effectExpired id) =
        (expired.map Effect.id).count id := by
    rw [← List.count_map_of_injective (expired.map Effect.id) Event.effectExpired
      (fun _ _ => Event.effectExpired.inj), List.map_map]
    rfl
  simp [told]

theorem Accounts.begins {effect : Effect} (accounts : engine.Accounts past created)
    (fresh : effect.id = engine.ids.next) (draw : next.ids.draw = engine.ids.draw)
    (used : next.ids.used = engine.ids.used + 1) (distinct : next.ids.Distinct)
    (effects : next.reality.effects = engine.reality.effects ++ [effect])
    {event : Event} (events : next.events = engine.events ++ [event])
    (silent : ∀ id, event ≠ .effectExpired id) : next.Accounts past (created ++ [effect]) := by
  have onward : engine.ids.Onward next.ids := ⟨draw, by omega⟩
  -- Only ends of created effects have been told, and their identifiers are older.
  have unknown : effect.id ∉ created.map Effect.id := by
    intro found
    obtain ⟨other, member, same⟩ := List.mem_map.1 found
    have apart := (accounts.drawn other member).ne_next draw (by omega) distinct
    exact apart (same.trans fresh)
  have unmade : effect ∉ created := fun member => unknown (List.mem_map_of_mem member)
  have count (id : EffectId) : (past ++ next.events).count (.effectExpired id) =
      (past ++ engine.events).count (.effectExpired id) := by
    rw [events, ← List.append_assoc, List.count_append, List.count_singleton]
    simp [silent id]
  constructor
  · intro other member
    rcases List.mem_append.1 member with old | new
    · exact (accounts.drawn other old).later onward
    · obtain rfl := List.mem_singleton.1 new
      exact ⟨engine.ids.used, by omega, by rw [fresh, draw]; rfl⟩
  · rw [List.map_append, List.nodup_append']
    refine ⟨accounts.distinct, List.nodup_singleton _, ?_⟩
    simpa using unknown
  · rw [effects]
    exact accounts.active.append (.refl _)
  · intro id found
    rw [← List.count_pos_iff, count, List.count_pos_iff] at found
    rw [List.map_append]
    exact List.mem_append_left _ (accounts.told id found)
  · intro other member
    rw [count, effects]
    rcases List.mem_append.1 member with old | new
    · have apart : other ≠ effect := fun same => unmade (same ▸ old)
      simpa [apart] using accounts.ends other old
    · obtain rfl := List.mem_singleton.1 new
      rw [if_pos (by simp), List.count_eq_zero]
      exact fun found => unknown (accounts.told other.id found)

theorem Accounts.castOne {spell : Spell} {verdict : Verdict}
    (accounts : engine.Accounts past created)
    (cast : engine.castOne now spell = .ok (verdict, next)) (distinct : next.ids.Distinct) :
    next.Accounts past (created ++ next.reality.effects.drop engine.reality.effects.length) := by
  obtain ⟨outcome, _, -, -, -, casts⟩ := castOne_casts cast
  obtain ⟨event, events, silent⟩ := casts.events
  rw [casts.effects, List.drop_left]
  cases plan : outcome.effect with
  | none =>
    have same : next.ids = engine.ids := IdSupply.ext casts.draw (by simpa [plan] using casts.used)
    have effects : next.reality.effects = engine.reality.effects := by
      simpa [Outcome.begun, plan] using casts.effects
    have removes : engine.Removes (fun _ => true) next :=
      removes_nothing (fun _ => rfl) same effects events (by simpa [eq_comm] using silent)
    simpa [Outcome.begun, plan] using accounts.removes removes
  | some plan' =>
    have effects := casts.effects
    have used := casts.used
    simp only [Outcome.begun, plan, Option.toList_some, List.map_cons, List.map_nil,
      List.length_cons, List.length_nil] at effects used ⊢
    exact accounts.begins rfl casts.draw used distinct effects events silent

theorem Accounts.cast {spells : List Spell} {verdict : Verdict}
    (accounts : engine.Accounts past created)
    (cast : engine.cast now spells = .ok (verdict, last)) (distinct : last.ids.Distinct) :
    last.Accounts past (created ++ (castings now spells engine).flatMap Casting.created) := by
  induction spells generalizing engine created with
  | nil =>
    cases cast
    simpa [castings] using accounts
  | cons spell others ih =>
    obtain ⟨first, next, one, ⟨accepted, rest⟩ | ⟨refused, -, rfl⟩⟩ := cast_cons cast
    · have grown := accounts.castOne one (distinct.before (cast_onward rest).ids)
      simpa [castings, one, accepted] using ih grown rest
    · simpa [castings, one, refused] using accounts.castOne one distinct

theorem Accounts.runDue {count : Nat} (accounts : engine.Accounts past created)
    (run : engine.runDue now = .ok (count, last)) : last.Accounts past created := by
  have forward : (engine.forward now).Accounts past created := accounts.congr rfl rfl rfl
  have kept (task : Task) (_ : task ∈ engine.timeline.due now) (state next : Engine)
      (held : state.Accounts past created) (fired : state.fire task = .ok next) :
      next.Accounts past created :=
    held.removes (fire_removes (held.distinct.sublist (held.active.map _)) fired)
  exact Fault.foldlM_keeps kept (runDue_eq_ok.1 run).2 forward

theorem Accounts.sweep (accounts : engine.Accounts past created) (now : UInt64) :
    (engine.sweep now).2.Accounts past created :=
  accounts.removes (sweep_removes engine now)

-- Most operations take nothing out of the log and cast nothing.
theorem Accounts.quiet (accounts : engine.Accounts past created) :
    engine.Accounts (past ++ []) (created ++ [].flatMap Casting.created) := by
  simpa using accounts

theorem Accounts.perform {operation : Operation} {answer : Answer}
    (accounts : engine.Accounts past created)
    (performed : engine.perform now operation = .ok (answer, next))
    (distinct : next.ids.Distinct) :
    next.Accounts (past ++ answer.leaving)
      (created ++ (operation.castings now engine).flatMap Casting.created) := by
  cases operation with
  | cast spells =>
    obtain ⟨⟨verdict, last⟩, cast, done⟩ := Fault.bind_eq_ok.1 performed
    cases done
    exact (accounts.cast cast distinct).congr rfl rfl (by simp [Answer.leaving])
  | runDue =>
    obtain ⟨⟨count, last⟩, run, done⟩ := Fault.bind_eq_ok.1 performed
    cases done
    exact (accounts.runDue run).quiet
  | sweep =>
    cases performed
    exact (accounts.sweep now).quiet
  | tick =>
    obtain ⟨⟨count, last⟩, ticked, done⟩ := Fault.bind_eq_ok.1 performed
    obtain ⟨fired, middle, run, -, rfl⟩ := tick_eq_ok.1 ticked
    cases done
    exact ((accounts.runDue run).sweep now).quiet
  | override focus value =>
    cases performed
    have removes : engine.Removes (fun _ => true) (engine.override focus value).2 :=
      removes_nothing (fun _ => rfl) rfl (by cases focus <;> rfl) rfl (by simp)
    exact (accounts.removes removes).quiet
  | setDimensions dimensions =>
    cases performed
    exact accounts.quiet.congr rfl rfl rfl
  | drain =>
    cases performed
    exact accounts.quiet.congr rfl rfl (by simp [Answer.leaving, clearLog])

theorem castOne_creates {spell : Spell} {verdict : Verdict}
    (cast : engine.castOne now spell = .ok (verdict, next)) :
    Casting.Creates
      ⟨spell, now, verdict, next.reality.effects.drop engine.reality.effects.length⟩ := by
  obtain ⟨outcome, _, -, rfl, fits, casts⟩ := castOne_casts cast
  have leaves (created : List Effect) :
      Casting.leavesEffect ⟨spell, now, outcome.verdict, created⟩ = outcome.effect.isSome := by
    rw [fits.effect]
    by_cases privileged : spell.isPrivileged = true
    · have accepted := castOne_privileged privileged cast
      simp [Casting.leavesEffect, Spell.leavesEffect, privileged, accepted]
    · simp [Casting.leavesEffect, Spell.leavesEffect, privileged]
  rw [Casting.Creates, leaves, casts.effects, List.drop_left, Outcome.begun]
  cases outcome.effect with
  | none => rfl
  | some plan => rfl

theorem castings_create {spells : List Spell} {casting : Casting}
    (member : casting ∈ castings now spells engine) : casting.Creates := by
  induction spells generalizing engine with
  | nil => simp [castings] at member
  | cons spell others ih =>
    rw [castings] at member
    split at member
    · simp at member
    next verdict next one =>
      rcases List.mem_cons.1 member with rfl | later
      · exact castOne_creates one
      · split at later
        · exact ih later
        · simp at later

end Engine

namespace History

variable {history next : History} {now : UInt64} {turn : Turn}

structure Conserved (history : History) : Prop where
  accounts : history.engine.Accounts history.past history.created
  creates : ∀ casting ∈ history.castings, casting.Creates

theorem start_conserved (laws : Laws) (ids : IdSupply) : (start laws ids).Conserved := by
  constructor
  · constructor <;> simp [start, created, Engine.new, Engine.ofParts]
  · simp [start]

theorem Conserved.replace (conserved : history.Conserved) (laws : Laws)
    (pending : List PendingTask) : (history.replace laws pending).Conserved :=
  ⟨conserved.accounts.congr rfl rfl (List.append_nil _), conserved.creates⟩

theorem Conserved.step (conserved : history.Conserved)
    (stepped : history.step now turn = .ok next) (distinct : next.engine.ids.Distinct) :
    next.Conserved := by
  cases turn with
  | operate operation =>
    obtain ⟨⟨answer, engine⟩, performed, done⟩ := Fault.bind_eq_ok.1 stepped
    cases done
    constructor
    · simpa [created] using conserved.accounts.perform performed distinct
    · intro casting member
      rcases List.mem_append.1 member with old | new
      · exact conserved.creates casting old
      · cases operation with
        | cast spells => exact Engine.castings_create new
        | runDue | sweep | tick | override | setDimensions | drain =>
          simp [Engine.Operation.castings] at new
  | rebuild laws =>
    cases stepped
    exact conserved.replace laws _
  | restart laws =>
    cases stepped
    exact conserved.replace laws []

-- Identifiers that are distinct at the end were distinct throughout.
theorem run_conserved {turns : List (UInt64 × Turn)} {start last : History}
    (ran : start.run turns = .ok last) (conserved : start.Conserved)
    (distinct : last.engine.ids.Distinct) : last.Conserved := by
  have kept (entry : UInt64 × Turn) (_ : entry ∈ turns) (history next : History)
      (held : history.engine.ids.Distinct → history.Conserved)
      (stepped : history.step entry.1 entry.2 = .ok next) (distinct : next.engine.ids.Distinct) :
      next.Conserved :=
    (held (distinct.before (step_onward stepped).1)).step stepped distinct
  exact Fault.foldlM_keeps kept ran (fun _ => conserved) distinct

theorem effects_conserved (laws : Laws) (ids : IdSupply) (turns : List (UInt64 × Turn))
    (history : History) (ran : (start laws ids).run turns = .ok history)
    (distinct : history.engine.ids.Distinct) :
    (∀ casting ∈ history.castings,
      casting.created.map (fun effect => (effect.anchor, effect.start)) =
        if casting.leavesEffect then [(casting.spell.anchor, casting.reading)] else []) ∧
    history.engine.reality.effects.Sublist (history.castings.flatMap Casting.created) ∧
    ∀ effect ∈ history.castings.flatMap Casting.created,
      (effect ∈ history.engine.reality.effects ∧
        history.events.count (.effectExpired effect.id) = 0) ∨
      (effect ∉ history.engine.reality.effects ∧
        history.events.count (.effectExpired effect.id) = 1) := by
  obtain ⟨accounts, creates⟩ := run_conserved ran (start_conserved laws ids) distinct
  refine ⟨creates, accounts.active, fun effect member => ?_⟩
  have ends := accounts.ends effect member
  by_cases active : effect ∈ history.engine.reality.effects
  · rw [if_pos active] at ends
    exact .inl ⟨active, ends⟩
  · rw [if_neg active] at ends
    exact .inr ⟨active, ends⟩

theorem effects_conserved_restarted :
    let rooted : Spell :=
      ⟨.entropy, .ofKind .zone, ⟨.increase, 5⟩, 0, "", true, true, true, [.kernelSpace]⟩
    let once : Engine.Operation := .cast [rooted]
    ∃ history,
      ((start {} (.ofSeed 0)).run [(10, .operate once), (20010, .operate .sweep),
        (20010, .operate .drain), (20010, .operate once), (30000, .restart {})] = .ok history ∧
      history.engine.ids.Distinct) ∧
    (∀ casting ∈ history.castings,
      casting.created.map (fun effect => (effect.anchor, effect.start)) =
        if casting.leavesEffect then [(casting.spell.anchor, casting.reading)] else []) ∧
    history.engine.reality.effects.Sublist (history.castings.flatMap Casting.created) ∧
    ∀ effect ∈ history.castings.flatMap Casting.created,
      (effect ∈ history.engine.reality.effects ∧
        history.events.count (.effectExpired effect.id) = 0) ∨
      (effect ∉ history.engine.reality.effects ∧
        history.events.count (.effectExpired effect.id) = 1) := by
  intro rooted once
  exact ⟨_, ⟨rfl, by decide⟩, effects_conserved {} (.ofSeed 0) [(10, .operate once),
    (20010, .operate .sweep), (20010, .operate .drain), (20010, .operate once),
    (30000, .restart {})] _ rfl (by decide)⟩

end History

end Spellcraft
