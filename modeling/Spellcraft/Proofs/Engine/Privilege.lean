import Mathlib.Data.List.Forall2
import Spellcraft.Pricing
import Spellcraft.Proofs.Engine.Attempt
import Spellcraft.Proofs.Engine.Chain
import Spellcraft.Proofs.Spell

set_option autoImplicit false

namespace Spellcraft

namespace Keyword

variable {carried others : List Keyword} {keyword : Keyword}

theorem chosen?_eq_none_iff : chosen? carried = none ↔ carried = [] := by
  have listed (keyword : Keyword) : keyword ∈ table := by
    cases keyword <;> decide
  rw [chosen?, List.find?_eq_none, List.eq_nil_iff_forall_not_mem]
  simp [listed]

theorem chosen?_first (chosen : chosen? carried = some keyword) :
    keyword ∈ carried ∧ ∀ other ∈ carried, table.idxOf keyword ≤ table.idxOf other := by
  obtain ⟨found, before, after, parts, none_before⟩ := List.find?_eq_some_iff_append.1 chosen
  have apart {other : Keyword} (member : other ∈ carried) : other ∉ before := fun earlier => by
    simpa [member] using none_before other earlier
  have carries : keyword ∈ carried := by simpa using found
  refine ⟨carries, fun other member => ?_⟩
  rw [parts, List.idxOf_append_of_notMem (apart carries), List.idxOf_cons_self,
    List.idxOf_append_of_notMem (apart member)]
  exact Nat.add_le_add_left (Nat.zero_le _) _

theorem chosen?_eq_some_iff : chosen? carried = some keyword ↔
    keyword ∈ carried ∧ ∀ other ∈ carried, table.idxOf keyword ≤ table.idxOf other := by
  refine ⟨chosen?_first, fun ⟨carries, first⟩ => ?_⟩
  have places (left right : Keyword) (same : table.idxOf left = table.idxOf right) :
      left = right := by
    cases left <;> cases right <;> first | rfl | cases same
  cases chosen : chosen? carried with
  | none => simp [chosen?_eq_none_iff.1 chosen] at carries
  | some other =>
    obtain ⟨member, least⟩ := chosen?_first chosen
    rw [places other keyword (Nat.le_antisymm (least keyword carries) (first other member))]

theorem chosen?_congr (same : ∀ keyword, keyword ∈ carried ↔ keyword ∈ others) :
    chosen? carried = chosen? others := by
  have alike (keyword : Keyword) : carried.contains keyword = others.contains keyword := by
    simp [same]
  simp only [chosen?, alike]

end Keyword

/-- Spells that differ only in how they list the same keywords. -/
structure Spell.Alike (left right : Spell) : Prop where
  apart : left = { right with keywords := left.keywords }
  keywords : ∀ keyword, keyword ∈ left.keywords ↔ keyword ∈ right.keywords

namespace Spell.Alike

variable {left right : Spell}

theorem carries (alike : left.Alike right) (keyword : Keyword) :
    left.carries keyword = right.carries keyword := by
  simp [Spell.carries, alike.keywords]

theorem cast (alike : left.Alike right) (laws : Laws) (reality : Reality) :
    reality.cast laws left = reality.cast laws right := by
  have chosen := Keyword.chosen?_congr alike.keywords
  rw [alike.apart]
  simp only [Reality.cast, chosen]

theorem castOne (alike : left.Alike right) (engine : Engine) (now : UInt64) :
    engine.castOne now left = engine.castOne now right := by
  have cast := alike.cast engine.laws engine.reality
  rw [Engine.castOne, cast, alike.apart]
  rfl

theorem charge (alike : left.Alike right) (rates : Rates) :
    rates.charge left = rates.charge right := by
  rw [alike.apart]
  rfl

theorem addSpell (alike : left.Alike right) (rates : Rates) (total : UInt64) :
    rates.addSpell total left = rates.addSpell total right := by
  have discounted := alike.carries .voidManifest
  have surcharged := alike.carries .paradoxEngine
  have privileged : left.isPrivileged = right.isPrivileged := by rw [alike.apart]
  simp only [Rates.addSpell, Rates.discount, Rates.surcharge, alike.charge, privileged,
    discounted, surcharged]

end Spell.Alike

section Alike

variable {left right : List Spell}

theorem Engine.cast_alike (alike : List.Forall₂ Spell.Alike left right) (now : UInt64)
    (engine : Engine) : engine.cast now left = engine.cast now right := by
  induction alike generalizing engine with
  | nil => rfl
  | cons first rest ih => simp only [Engine.cast, first.castOne, ih]

theorem Rates.bill_alike (alike : List.Forall₂ Spell.Alike left right) (rates : Rates) :
    rates.bill left = rates.bill right := by
  have totals (total : UInt64) : left.foldl rates.addSpell total =
      right.foldl rates.addSpell total := by
    induction alike generalizing total with
    | nil => rfl
    | cons first rest ih => rw [List.foldl_cons, List.foldl_cons, first.addSpell, ih]
  have entries : left.map (fun spell => Number.capped32 (rates.charge spell).toNat) =
      right.map fun spell => Number.capped32 (rates.charge spell).toNat := by
    rw [← List.forall₂_eq_eq_eq, List.forall₂_map_left_iff, List.forall₂_map_right_iff]
    exact alike.imp fun _ _ same => by rw [same.charge]
  rw [bill, bill, entries, totals]

end Alike

namespace Reality

/-- What a privileged spell may do to reality, by its chosen keyword. -/
def InLane (keyword : Option Keyword) (before after : Reality) : Prop :=
  match keyword with
  | some .kernelSpace => after = { before with effects := after.effects }
  | some .rootEntropy => after = { before with entropy := after.entropy }
  | some .voidManifest =>
    after = { before with energy := after.energy, probability := after.probability }
  | some .quantumSuperposition => after = { before with probability := after.probability }
  | some .paradoxEngine => after = { before with timeSpeed := after.timeSpeed }
  | none => after = before

variable {laws : Laws} {keyword : Option Keyword} {shift : Int} {reality next : Reality}
  {outcome : Outcome}

theorem castPrivileged_effect
    (cast : castPrivileged laws keyword shift reality = .ok (outcome, next)) :
    outcome.effect = if keyword = some .kernelSpace then (openKernel laws shift).effect
      else none := by
  unfold castPrivileged at cast
  split at cast
  case h_2 =>
    obtain ⟨entropy, -, done⟩ := Fault.bind_eq_ok.1 cast
    cases done
    rfl
  all_goals
    cases cast
    rfl

-- Only a kernel that opens begins an effect.
theorem RootWritten.inLane (written : RootWritten laws keyword shift reality next)
    {effects : List Effect} (closed : keyword ≠ some .kernelSpace → effects = []) :
    InLane keyword reality { next with effects := next.effects ++ effects } := by
  have untouched (closed_now : keyword ≠ some .kernelSpace) :
      { next with effects := next.effects ++ effects } = next := by
    rw [closed closed_now, List.append_nil]
  cases keyword with
  | none => exact (untouched (by simp)).trans written
  | some keyword =>
    cases keyword with
    | kernelSpace =>
      obtain rfl : next = reality := written
      rfl
    | rootEntropy =>
      rw [untouched (by simp), written.2]
      rfl
    | voidManifest | quantumSuperposition | paradoxEngine =>
      rw [RootWritten] at written
      rw [untouched (by simp), written]
      rfl

end Reality

def Spell.opensKernel (spell : Spell) : Bool :=
  Keyword.chosen? spell.keywords == some .kernelSpace

namespace Engine

variable {engine middle next last : Engine} {now : UInt64} {spell : Spell}

def kernelEffect (engine : Engine) (now : UInt64) (spell : Spell) : Effect where
  id := engine.ids.next
  kind := .kernelSpace
  anchor := spell.anchor
  shift := Int64.ofInt (spell.shift.signed * 2)
  duration := engine.laws.kernelDuration
  start := now
  intensity := Number.ofNatural spell.shift.signed.natAbs / 50.0

def kernelEnds (engine : Engine) (now : UInt64) (opened : Nat) : List PendingTask :=
  (List.range opened).map fun count =>
    ⟨Number.capped64 (now.toNat + engine.laws.kernelDuration.toNat),
      .expireEffect (engine.ids.draw (engine.ids.used + count))⟩

structure InLane (engine : Engine) (now : UInt64) (spell : Spell) (next : Engine) : Prop where
  laws : next.laws = engine.laws
  reality : Reality.InLane (Keyword.chosen? spell.keywords)
    { engine.reality with lastFocus := some spell.focus } next.reality
  effects : next.reality.effects =
    engine.reality.effects ++ if spell.opensKernel then [engine.kernelEffect now spell] else []
  timeline : next.timeline =
    engine.timeline.scheduleAll (engine.kernelEnds now spell.opensKernel.toNat)
  ids : next.ids = { engine.ids with used := engine.ids.used + spell.opensKernel.toNat }

theorem castOne_inLane (range : 0.0 ≤ engine.laws.privilegedEntropyCeiling) (now : UInt64)
    (privileged : spell.isPrivileged = true) :
    ∃ verdict next, engine.castOne now spell = .ok (verdict, next) ∧ verdict.success = true ∧
      engine.InLane now spell next := by
  obtain ⟨verdict, next, one⟩ := castOne_ok range now spell
  have accepted := castOne_privileged privileged one
  obtain ⟨outcome, reality, decided, rfl, rfl⟩ := castOne_granted one accepted
  have written := Reality.cast_written decided
  simp only [privileged, if_true] at written
  obtain ⟨-, deferred, written⟩ := written
  simp only [Reality.cast, privileged, if_true] at decided
  have effects := (Reality.castPrivileged_spec decided).2.2
  have effect : outcome.effect = if spell.opensKernel then
      (Reality.openKernel engine.laws spell.shift.signed).effect else none := by
    simpa [Spell.opensKernel] using Reality.castPrivileged_effect decided
  have begun : outcome.begun now engine.ids.next spell.anchor =
      if spell.opensKernel then [engine.kernelEffect now spell] else [] := by
    rw [Outcome.begun, effect]
    cases spell.opensKernel <;> rfl
  have tasks : outcome.tasks now engine.ids.next =
      engine.kernelEnds now spell.opensKernel.toNat := by
    rw [Outcome.tasks, effect, deferred]
    cases spell.opensKernel <;> rfl
  have drawn : outcome.effect.toList.length = spell.opensKernel.toNat := by
    rw [effect]
    cases spell.opensKernel <;> rfl
  refine ⟨_, _, one, accepted, rfl, written.inLane fun closed => ?_, ?_, ?_, ?_⟩
  · simp [begun, Spell.opensKernel, closed]
  · rw [begun, effects]
  · rw [tasks]
  · rw [drawn]

-- The next identifier of an engine is the first one that it has not drawn yet.
theorem InLane.kernelEnds (lane : engine.InLane now spell next) (opened : Nat) :
    engine.kernelEnds now (spell.opensKernel.toNat + opened) =
      engine.kernelEnds now spell.opensKernel.toNat ++ next.kernelEnds now opened := by
  simp only [Engine.kernelEnds, List.range_add, List.map_append, List.map_map, lane.laws, lane.ids,
    Function.comp_def, Nat.add_assoc]

theorem cast_inLane {spells : List Spell}
    (range : 0.0 ≤ engine.laws.privilegedEntropyCeiling) (now : UInt64)
    (privileged : ∀ spell ∈ spells, spell.isPrivileged = true) :
    ∃ verdicts last, engine.Accepts now spells verdicts last ∧
      last.timeline = engine.timeline.scheduleAll
        (engine.kernelEnds now (spells.countP Spell.opensKernel)) := by
  induction spells generalizing engine with
  | nil => exact ⟨[], engine, .nil engine, rfl⟩
  | cons spell others ih =>
    obtain ⟨verdict, next, one, accepted, lane⟩ :=
      castOne_inLane range now (privileged spell (by simp))
    have others_privileged : ∀ other ∈ others, other.isPrivileged = true :=
      fun other member => privileged other (List.mem_cons_of_mem _ member)
    obtain ⟨verdicts, last, accepts, timeline⟩ := @ih next (by rwa [lane.laws]) others_privileged
    refine ⟨verdict :: verdicts, last, .cons one accepted accepts, ?_⟩
    have counted : (spell :: others).countP Spell.opensKernel =
        spell.opensKernel.toNat + others.countP Spell.opensKernel := by
      rw [List.countP_cons, Nat.add_comm]
      cases spell.opensKernel <;> rfl
    rw [counted, lane.kernelEnds, timeline, lane.timeline]
    simp only [Timeline.scheduleAll, List.foldl_append]

theorem Accepts.split {before after : List Spell} {verdicts : List Verdict}
    (accepts : engine.Accepts now (before ++ spell :: after) verdicts last) :
    ∃ earlier middle verdict next later, engine.Accepts now before earlier middle ∧
      middle.castOne now spell = .ok (verdict, next) ∧ verdict.success = true ∧
      next.Accepts now after later last := by
  induction before generalizing engine verdicts with
  | nil =>
    cases accepts with
    | cons one accepted rest => exact ⟨[], engine, _, _, _, .nil engine, one, accepted, rest⟩
  | cons first others ih =>
    cases accepts with
    | cons one accepted rest =>
      obtain ⟨earlier, middle, verdict, next, later, accepts, rest⟩ := ih rest
      exact ⟨_, middle, verdict, next, later, .cons one accepted accepts, rest⟩

theorem privileged_in_lane (engine : Engine)
    (range : 0.0 ≤ engine.laws.privilegedEntropyCeiling) (now : UInt64) :
    (∀ spells : List Spell, (∀ spell ∈ spells, spell.isPrivileged = true) →
      ∃ verdicts last, engine.Accepts now spells verdicts last ∧
        engine.cast now spells = .ok (.accepted .allCast, last) ∧
        last.timeline = engine.timeline.scheduleAll
          (engine.kernelEnds now (spells.countP Spell.opensKernel)) ∧
        last.timeline.pending.Perm (engine.timeline.pending ++
          engine.kernelEnds now (spells.countP Spell.opensKernel)) ∧
        last.timeline.pending.filter PendingTask.isCorrection =
          engine.timeline.pending.filter PendingTask.isCorrection ∧
        ∀ before spell after, spells = before ++ spell :: after →
          ∃ earlier middle verdict next later, engine.Accepts now before earlier middle ∧
            middle.castOne now spell = .ok (verdict, next) ∧ next.Accepts now after later last ∧
            middle.InLane now spell next) ∧
    (∀ left right : List Spell, List.Forall₂ Spell.Alike left right →
      engine.cast now left = engine.cast now right ∧
        ∀ rates : Rates, rates.bill left = rates.bill right) ∧
    (∀ carried, (Keyword.chosen? carried = none ↔ carried = []) ∧
      ∀ keyword, Keyword.chosen? carried = some keyword ↔ keyword ∈ carried ∧
        ∀ other ∈ carried, Keyword.table.idxOf keyword ≤ Keyword.table.idxOf other) ∧
    ∀ shift : Shift, (Int64.ofInt (shift.signed * 2)).toInt = shift.signed * 2 ∧
      (Int64.ofInt (shift.signed * 3)).toInt = shift.signed * 3 := by
  refine ⟨fun spells privileged => ?_, fun left right alike => ?_, fun carried => ?_, ?_⟩
  · obtain ⟨verdicts, last, accepts, timeline⟩ := cast_inLane range now privileged
    refine ⟨verdicts, last, accepts, accepts.whole, timeline, ?_, ?_, ?_⟩
    · rw [timeline]
      exact Timeline.scheduleAll_perm ..
    · rw [timeline]
      refine Timeline.filter_scheduleAll_of_neg (fun entry member => ?_) _
      obtain ⟨_, -, rfl⟩ := List.mem_map.1 member
      rfl
    · rintro before spell after rfl
      obtain ⟨earlier, middle, verdict, next, later, first, one, -, rest⟩ := accepts.split
      have middle_range : 0.0 ≤ middle.laws.privilegedEntropyCeiling := by
        rwa [(cast_onward first.whole).laws]
      obtain ⟨_, _, again, -, lane⟩ := castOne_inLane middle_range now (privileged spell (by simp))
      rw [one] at again
      cases again
      exact ⟨earlier, middle, verdict, next, later, first, one, rest, lane⟩
  · exact ⟨cast_alike alike now engine, Rates.bill_alike alike⟩
  · exact ⟨Keyword.chosen?_eq_none_iff, fun keyword => Keyword.chosen?_eq_some_iff⟩
  · intro shift
    have amount := shift.natAbs_signed
    have below := shift.amount.toNat_lt
    constructor
    · exact Int64.toInt_ofInt_of_le (by omega) (by omega)
    · exact Int64.toInt_ofInt_of_le (by omega) (by omega)

-- Two kernels open: for a spell that lists the keyword last, and for one that lists it twice.
theorem privileged_in_lane_extremes :
    let root (focus : Focus) (shift : Shift) (keywords : List Keyword) : Spell :=
      ⟨focus, .ofKind .caster, shift, 0, "", false, true, true, keywords⟩
    let laws : Laws := { privilegedEntropyCeiling := 0.0, kernelDuration := 0xFFFFFFFFFFFFFFFF }
    let reality : Reality := { energy := 0.0 / 0.0, entropy := 1.0 / 0.0 }
    let engine := Engine.ofParts laws (.ofSeed 7) reality [⟨50, .halveProbability⟩]
    let opened := root .time ⟨.decrease, 0xFFFFFFFF⟩ [.paradoxEngine, .kernelSpace]
    let rooted := root .energy ⟨.increase, 3⟩ [.paradoxEngine, .rootEntropy]
    let others := [root .entropy ⟨.decrease, 9⟩ [], root .time ⟨.increase, 7⟩ [.voidManifest],
      root .time ⟨.increase, 0⟩ [.paradoxEngine],
      root .energy ⟨.increase, 0xFFFFFFFF⟩ [.kernelSpace, .quantumSuperposition, .kernelSpace]]
    let spells := opened :: rooted :: others
    let reordered := root .time ⟨.decrease, 0xFFFFFFFF⟩ [.kernelSpace, .paradoxEngine, .kernelSpace]
    (0.0 ≤ engine.laws.privilegedEntropyCeiling ∧ (∀ spell ∈ spells, spell.isPrivileged = true) ∧
      List.Forall₂ Spell.Alike spells (reordered :: rooted :: others)) ∧
    ∃ last, engine.cast 10 spells = .ok (.accepted .allCast, last) ∧
      engine.cast 10 (reordered :: rooted :: others) = .ok (.accepted .allCast, last) ∧
      ({} : Rates).bill spells = ({} : Rates).bill (reordered :: rooted :: others) ∧
      last.timeline.pending = [⟨50, .halveProbability⟩,
        ⟨0xFFFFFFFFFFFFFFFF, .expireEffect (engine.ids.draw 0)⟩,
        ⟨0xFFFFFFFFFFFFFFFF, .expireEffect (engine.ids.draw 1)⟩] ∧
      last.reality.effects.map Effect.shift = [-8589934590, 8589934590] ∧
      ∃ middle next : Engine, ∃ verdict,
        engine.cast 10 [opened] = .ok (.accepted .allCast, middle) ∧
        middle.castOne 10 rooted = .ok (verdict, next) ∧
        next.reality =
          { middle.reality with lastFocus := some .energy, entropy := next.reality.entropy } := by
  intro root laws reality engine opened rooted others spells reordered
  have range : 0.0 ≤ engine.laws.privilegedEntropyCeiling := by decide
  have privileged : ∀ spell ∈ spells, spell.isPrivileged = true := by decide
  have alike : List.Forall₂ Spell.Alike spells (reordered :: rooted :: others) := by
    have members (keyword : Keyword) :
        keyword ∈ opened.keywords ↔ keyword ∈ reordered.keywords := by
      cases keyword <;> decide
    exact .cons ⟨rfl, members⟩ (List.forall₂_same.2 fun spell _ => ⟨rfl, fun _ => Iff.rfl⟩)
  obtain ⟨in_lane, unordered, -⟩ := privileged_in_lane engine range 10
  obtain ⟨verdicts, last, -, whole, timeline, -, -, lanes⟩ := in_lane spells privileged
  obtain ⟨same, billed⟩ := unordered _ _ alike
  obtain ⟨_, middle, verdict, next, _, first, one, -, lane⟩ := lanes [opened] rooted others rfl
  have effects : (engine.cast 10 spells).map (fun cast => cast.2.reality.effects.map Effect.shift) =
      .ok [-8589934590, 8589934590] := by decide +kernel
  rw [whole] at effects
  refine ⟨⟨range, privileged, alike⟩, last, whole, same ▸ whole, billed _, ?_,
    Except.ok.inj effects, middle, next, verdict, first.whole, one, lane.reality⟩
  rw [timeline]
  decide +kernel

end Engine

end Spellcraft
