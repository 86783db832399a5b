import Spellcraft.Proofs.Engine.Correction

set_option autoImplicit false

namespace Spellcraft

open Number

def Laws.IsNormal (laws : Laws) (timeSpeed : Float) : Prop :=
  laws.normalTimeMin ≤ timeSpeed ∧ timeSpeed ≤ laws.normalTimeMax

def lastMove? (attempts : List Attempt) : Option Attempt :=
  (attempts.filter Attempt.movesTime).getLast?

theorem lastMove?_concat_of_moves {last : Attempt} (moves : last.movesTime = true)
    (attempts : List Attempt) : lastMove? (attempts ++ [last]) = some last := by
  simp [lastMove?, moves]

theorem lastMove?_concat_of_rests {last : Attempt} (rests : last.movesTime = false)
    (attempts : List Attempt) : lastMove? (attempts ++ [last]) = lastMove? attempts := by
  simp [lastMove?, rests]

namespace Engine

variable {laws : Laws} {engine next last : Engine} {now : UInt64} {attempts : List Attempt}

structure Recovering (laws : Laws) (engine : Engine) (attempts : List Attempt) : Prop where
  laws_eq : engine.laws = laws
  number : engine.reality.timeSpeed.isNaN = false
  settles : laws.IsNormal engine.reality.timeSpeed ∨ ∃ attempt, lastMove? attempts = some attempt ∧
    attempt.laws = laws ∧ attempt.normalization ∈ engine.timeline.pending

theorem Recovering.congr (recovering : engine.Recovering laws attempts)
    (same_laws : next.laws = engine.laws)
    (same_speed : next.reality.timeSpeed = engine.reality.timeSpeed)
    (kept : engine.timeline.pending ⊆ next.timeline.pending) {others : List Attempt}
    (same_move : lastMove? others = lastMove? attempts) : next.Recovering laws others := by
  refine ⟨same_laws.trans recovering.laws_eq, same_speed ▸ recovering.number, ?_⟩
  rcases recovering.settles with normal | ⟨attempt, moved, under, pending⟩
  · exact .inl (same_speed ▸ normal)
  · exact .inr ⟨attempt, same_move.trans moved, under, kept pending⟩

theorem castOne_keeps_pending {spell : Spell} {verdict : Verdict}
    (cast : engine.castOne now spell = .ok (verdict, next)) :
    engine.timeline.pending ⊆ next.timeline.pending :=
  (castOne_carries cast).order.subset

theorem castOne_normalization {spell : Spell} {verdict : Verdict}
    (cast : engine.castOne now spell = .ok (verdict, next))
    (moves : Attempt.movesTime ⟨engine.laws, now, spell, verdict, next.reality⟩ = true) :
    Attempt.normalization ⟨engine.laws, now, spell, verdict, next.reality⟩ ∈
      next.timeline.pending := by
  have called : Attempt.normalization ⟨engine.laws, now, spell, verdict, next.reality⟩ ∈
      (engine.scheduledOne now spell).filter PendingTask.isCorrection := by
    simp [scheduledOne_corrections cast, Attempt.corrections, moves]
  have carried := (castOne_carries cast).perm
  rw [List.nil_append] at carried
  exact carried.mem_iff.2 (List.mem_append_right _ (List.mem_filter.1 called).1)

-- Only an accepted spell that aims at time moves it.
theorem castOne_timeSpeed {spell : Spell} {verdict : Verdict} (plain : spell.isPrivileged = false)
    (cast : engine.castOne now spell = .ok (verdict, next)) :
    if Attempt.movesTime ⟨engine.laws, now, spell, verdict, next.reality⟩ then
      next.reality.timeSpeed = 1.0 + ofInteger spell.shift.signed / 100.0
    else next.reality.timeSpeed = engine.reality.timeSpeed := by
  obtain ⟨outcome, reality, decided, rfl, same⟩ := castOne_parameters cast
  have timeSpeed : reality.timeSpeed = next.reality.timeSpeed := congrFun same .time
  have written := Reality.cast_written decided
  simp only [plain] at written
  rw [← timeSpeed]
  rcases written with ⟨refused, -, rfl⟩ | ⟨accepted, written⟩
  · simp [Attempt.movesTime, Attempt.isPlain, refused, Reality.aimedAt]
  · cases focus : spell.focus with
    | energy =>
      rw [focus] at written
      obtain ⟨-, -, rfl⟩ := written
      simp [Attempt.movesTime, focus, Reality.aimedAt]
    | probability =>
      rw [focus] at written
      obtain ⟨-, rfl⟩ := written
      simp [Attempt.movesTime, focus, Reality.aimedAt]
    | entropy =>
      rw [focus] at written
      obtain ⟨-, -, -, rfl⟩ := written
      simp [Attempt.movesTime, focus, Reality.aimedAt]
    | time =>
      rw [focus] at written
      obtain ⟨-, -, -, rfl⟩ := written
      simp [Attempt.movesTime, Attempt.isPlain, accepted, plain, focus]

theorem Recovering.castOne {spell : Spell} {verdict : Verdict}
    (recovering : engine.Recovering laws attempts) (plain : spell.isPrivileged = false)
    (cast : engine.castOne now spell = .ok (verdict, next)) :
    next.Recovering laws (attempts ++ [⟨engine.laws, now, spell, verdict, next.reality⟩]) := by
  have same_laws := (castOne_onward cast).laws
  have timeSpeed := castOne_timeSpeed plain cast
  split at timeSpeed
  next moves =>
    refine ⟨same_laws.trans recovering.laws_eq, timeSpeed ▸ multiplier_number _, .inr ?_⟩
    exact ⟨_, lastMove?_concat_of_moves moves attempts, recovering.laws_eq,
      castOne_normalization cast moves⟩
  next rests =>
    have none_moved := Bool.not_eq_true _ ▸ rests
    exact recovering.congr same_laws timeSpeed (castOne_keeps_pending cast)
      (lastMove?_concat_of_rests none_moved attempts)

theorem Recovering.cast {spells : List Spell} {verdict : Verdict}
    (recovering : engine.Recovering laws attempts)
    (plain : ∀ spell ∈ spells, spell.isPrivileged = false)
    (cast : engine.cast now spells = .ok (verdict, last)) :
    last.Recovering laws (attempts ++ Engine.attempts now spells engine) := by
  induction spells generalizing engine attempts with
  | nil =>
    cases cast
    simpa [Engine.attempts] using recovering
  | cons spell others ih =>
    have one_plain := plain spell (by simp)
    obtain ⟨first, next, one, ⟨accepted, rest⟩ | ⟨refused, -, rfl⟩⟩ := cast_cons cast
    · have later := ih (recovering.castOne one_plain one)
        (fun other member => plain other (List.mem_cons_of_mem _ member)) rest
      simpa [Engine.attempts, one, accepted] using later
    · simpa [Engine.attempts, one, refused] using recovering.castOne one_plain one

theorem normalized_isNormal {timeSpeed : Float} (range : laws.normalTimeMin ≤ laws.normalTimeMax)
    (number : timeSpeed.isNaN = false) : laws.IsNormal (normalized laws timeSpeed) :=
  ⟨le_confine range number, confine_le range number⟩

theorem iterate_isNormal {timeSpeed : Float} (range : laws.normalTimeMin ≤ laws.normalTimeMax)
    (number : timeSpeed.isNaN = false) (count : Nat)
    (settles : laws.IsNormal timeSpeed ∨ 0 < count) :
    laws.IsNormal ((normalized laws)^[count] timeSpeed) := by
  induction count generalizing timeSpeed with
  | zero => exact settles.resolve_right (Nat.lt_irrefl 0)
  | succ count ih =>
    have normal := normalized_isNormal range number
    rw [Function.iterate_succ_apply]
    exact ih (number_of_le normal.1).2 (.inl normal)

theorem iterate_number {timeSpeed : Float} (range : laws.normalTimeMin ≤ laws.normalTimeMax)
    (number : timeSpeed.isNaN = false) (count : Nat) :
    ((normalized laws)^[count] timeSpeed).isNaN = false := by
  cases count with
  | zero => exact number
  | succ count =>
    exact (number_of_le (iterate_isNormal range number _ (.inr (Nat.succ_pos count))).1).2

theorem dueCount_pos {task : Task} {entry : PendingTask} {entries : List PendingTask}
    (member : entry ∈ entries) (same : entry.task = task) (late : entry.due ≤ now) :
    0 < dueCount task now entries :=
  List.countP_pos_iff.2 ⟨entry, member, by simp [same, late]⟩

theorem Recovering.range (recovering : engine.Recovering laws attempts)
    (range : laws.normalTimeMin ≤ laws.normalTimeMax) :
    engine.laws.normalTimeMin ≤ engine.laws.normalTimeMax := by
  rwa [recovering.laws_eq]

-- Firing restores the range if the normalization of the last mover is due.
theorem Recovering.runDue_isNormal {count : Nat} (recovering : engine.Recovering laws attempts)
    (range : laws.normalTimeMin ≤ laws.normalTimeMax)
    (run : engine.runDue now = .ok (count, next))
    (reached : ∀ attempt, lastMove? attempts = some attempt → attempt.normalization.due ≤ now) :
    laws.IsNormal next.reality.timeSpeed := by
  rw [runDue_timeSpeed (recovering.range range) run, recovering.laws_eq]
  apply iterate_isNormal range recovering.number
  rcases recovering.settles with normal | ⟨attempt, moved, -, pending⟩
  · exact .inl normal
  · exact .inr (dueCount_pos pending rfl (reached attempt moved))

theorem Recovering.runDue {count : Nat} (recovering : engine.Recovering laws attempts)
    (range : laws.normalTimeMin ≤ laws.normalTimeMax)
    (run : engine.runDue now = .ok (count, next)) : next.Recovering laws attempts := by
  have timeSpeed := runDue_timeSpeed (recovering.range range) run
  rw [recovering.laws_eq] at timeSpeed
  refine ⟨(runDue_kept run).laws.trans recovering.laws_eq, ?_, ?_⟩
  · rw [timeSpeed]
    exact iterate_number range recovering.number _
  · rcases recovering.settles with normal | ⟨attempt, moved, under, pending⟩
    · rw [timeSpeed]
      exact .inl (iterate_isNormal range recovering.number _ (.inl normal))
    · by_cases late : attempt.normalization.due ≤ now
      · refine .inl (recovering.runDue_isNormal range run fun other moved' => ?_)
        obtain rfl : attempt = other := Option.some.inj (moved.symm.trans moved')
        exact late
      · refine .inr ⟨attempt, moved, under, ?_⟩
        have left : next.timeline = engine.timeline.after now := (runDue_kept run).timeline
        rw [left, Timeline.after_pending_eq_filter, List.mem_filter]
        exact ⟨pending, decide_eq_true (UInt64.not_le.1 late)⟩

theorem Recovering.perform {operation : Operation} {answer : Answer}
    (recovering : engine.Recovering laws attempts)
    (range : laws.normalTimeMin ≤ laws.normalTimeMax)
    (spares : operation.Within (·.isPrivileged = false) fun focus _ => focus ≠ .time)
    (performed : engine.perform now operation = .ok (answer, next)) :
    next.Recovering laws (attempts ++ operation.attempts now engine) := by
  cases operation with
  | cast spells =>
    obtain ⟨⟨verdict, last⟩, cast, done⟩ := Fault.bind_eq_ok.1 performed
    cases done
    exact recovering.cast spares cast
  | runDue =>
    obtain ⟨⟨count, last⟩, run, done⟩ := Fault.bind_eq_ok.1 performed
    cases done
    rw [Operation.attempts, List.append_nil]
    exact recovering.runDue range run
  | tick =>
    obtain ⟨⟨count, last⟩, ticked, done⟩ := Fault.bind_eq_ok.1 performed
    cases done
    obtain ⟨_, middle, run, -, rfl⟩ := tick_eq_ok.1 ticked
    rw [Operation.attempts, List.append_nil]
    apply (recovering.runDue range run).congr
    · rfl
    · rfl
    · exact List.Subset.refl _
    · rfl
  | override focus value =>
    cases performed
    rw [Operation.attempts, List.append_nil]
    apply recovering.congr
    · rfl
    · cases focus with
      | time => exact absurd rfl spares
      | energy | probability | entropy => rfl
    · exact List.Subset.refl _
    · rfl
  | sweep | setDimensions | drain =>
    cases performed
    rw [Operation.attempts, List.append_nil]
    apply recovering.congr
    · rfl
    · rfl
    · exact List.Subset.refl _
    · rfl

end Engine

/-- A turn that casts no privileged spell, sets no time and keeps the laws. -/
def Turn.SparesTime (laws : Laws) : Turn → Prop
  | .operate operation =>
    operation.Within (·.isPrivileged = false) fun focus _ => focus ≠ .time
  | .rebuild others => others = laws
  | .restart _ => False

def Turn.laws? : Turn → Option Laws
  | .rebuild laws | .restart laws => some laws
  | .operate _ => none

namespace History

open Engine

variable {laws : Laws} {history next : History} {now : UInt64} {turn : Turn} {past : List Moment}

theorem step_recovering
    (recovering : history.engine.Recovering laws (past.flatMap Moment.attempts))
    (range : laws.normalTimeMin ≤ laws.normalTimeMax) (spares : turn.SparesTime laws)
    (stepped : history.step now turn = .ok next) :
    next.engine.Recovering laws
      ((past ++ [turn.moment now history.engine]).flatMap Moment.attempts) := by
  have attempts : (past ++ [turn.moment now history.engine]).flatMap Moment.attempts =
      past.flatMap Moment.attempts ++ turn.attempts now history.engine := by
    simp [Turn.moment]
  rw [attempts]
  cases turn with
  | operate operation =>
    obtain ⟨⟨answer, engine⟩, performed, done⟩ := Fault.bind_eq_ok.1 stepped
    cases done
    exact recovering.perform range spares performed
  | rebuild others =>
    cases stepped
    obtain rfl : others = laws := spares
    rw [Turn.attempts, List.append_nil]
    have same : (history.replace others history.engine.timeline.pending).engine.timeline =
        history.engine.timeline := Timeline.ofList_pending _
    apply recovering.congr
    · exact recovering.laws_eq.symm
    · rfl
    · rw [same]
      exact List.Subset.refl _
    · rfl
  | restart others => exact absurd spares id

theorem step_laws {allowed : List Laws} (under : history.engine.laws ∈ allowed)
    (built : ∀ laws, turn.laws? = some laws → laws ∈ allowed)
    (stepped : history.step now turn = .ok next) : next.engine.laws ∈ allowed := by
  cases turn with
  | operate operation =>
    obtain ⟨⟨answer, engine⟩, performed, done⟩ := Fault.bind_eq_ok.1 stepped
    cases done
    rwa [(perform_onward performed).laws]
  | rebuild others | restart others =>
    cases stepped
    exact built others rfl

theorem start_recovering (laws : Laws) (ids : IdSupply)
    (low : laws.normalTimeMin ≤ 1.0) (high : 1.0 ≤ laws.normalTimeMax) :
    (start laws ids).engine.Recovering laws [] := by
  have number : (1.0 : Float).isNaN = false := by decide
  exact ⟨rfl, number, .inl ⟨low, high⟩⟩

section Run

variable {ids : IdSupply} {turns : List (UInt64 × Turn)}
variable (ran : (start laws ids).run turns = .ok history)

include ran

theorem run_accounted (queued : ∀ entry ∈ turns, ∀ others, entry.2 ≠ .restart others) :
    history.engine.pendingCorrections.Perm (Moment.waiting (moments turns (start laws ids))) := by
  have kept (entry : UInt64 × Turn) (member : entry ∈ turns) (history next : History)
      (past : List Moment) (held : history.engine.pendingCorrections.Perm (Moment.waiting past))
      (stepped : history.step entry.1 entry.2 = .ok next) :=
    step_accounted held stepped (queued entry member)
  have initial : (start laws ids).engine.pendingCorrections.Perm (Moment.waiting []) := .refl []
  exact run_moments kept ran initial

theorem run_laws : history.engine.laws ∈ laws :: turns.filterMap (·.2.laws?) := by
  have kept (entry : UInt64 × Turn) (member : entry ∈ turns) (history next : History)
      (under : history.engine.laws ∈ laws :: turns.filterMap (·.2.laws?))
      (stepped : history.step entry.1 entry.2 = .ok next) :
      next.engine.laws ∈ laws :: turns.filterMap (·.2.laws?) := by
    refine step_laws under (fun built same => ?_) stepped
    exact List.mem_cons_of_mem _ (List.mem_filterMap.2 ⟨entry, member, same⟩)
  have under : (start laws ids).engine.laws ∈ laws :: turns.filterMap (·.2.laws?) := by
    simp [start, Engine.new, ofParts]
  exact Fault.foldlM_keeps kept ran under

theorem run_recovering (low : laws.normalTimeMin ≤ 1.0) (high : 1.0 ≤ laws.normalTimeMax)
    (spares : ∀ entry ∈ turns, entry.2.SparesTime laws) :
    history.engine.Recovering laws
      ((moments turns (start laws ids)).flatMap Moment.attempts) := by
  have kept (entry : UInt64 × Turn) (member : entry ∈ turns) (history next : History)
      (past : List Moment) (held : history.engine.Recovering laws (past.flatMap Moment.attempts))
      (stepped : history.step entry.1 entry.2 = .ok next) :=
    step_recovering held (le_trans low high) (spares entry member) stepped
  have initial : (start laws ids).engine.Recovering laws ([].flatMap Moment.attempts) :=
    start_recovering laws ids low high
  exact run_moments kept ran initial

end Run

theorem corrections_fire_once (laws : Laws) (ids : IdSupply) (turns : List (UInt64 × Turn))
    (history : History) (ran : (start laws ids).run turns = .ok history)
    (queued : ∀ entry ∈ turns, ∀ others, entry.2 ≠ .restart others)
    (normal : ∀ used ∈ laws :: turns.filterMap (·.2.laws?),
      used.normalTimeMin ≤ 1.0 ∧ 1.0 ≤ used.normalTimeMax) :
    let engine := history.engine
    let moments := moments turns (start laws ids)
    engine.pendingCorrections.Perm (Moment.waiting moments) ∧
    (∀ now,
      (∃ count next, engine.runDue now = .ok (count, next) ∧
        engine.Corrected now (Moment.waiting moments) next) ∧
      ∃ count next, engine.tick now = .ok (count, next) ∧
        engine.Corrected now (Moment.waiting moments) next) ∧
    ((∀ entry ∈ turns, entry.2.SparesTime laws) → ¬ laws.IsNormal engine.reality.timeSpeed →
      ∃ attempt, lastMove? (moments.flatMap Moment.attempts) = some attempt ∧
        attempt.laws = laws ∧ attempt.normalization ∈ engine.timeline.pending ∧
        ∀ now, attempt.normalization.due ≤ now → ∀ count next,
          engine.runDue now = .ok (count, next) ∨ engine.tick now = .ok (count, next) →
          laws.IsNormal next.reality.timeSpeed) := by
  intro engine moments
  have accounted : engine.pendingCorrections.Perm (Moment.waiting moments) :=
    run_accounted ran queued
  have range : engine.laws.normalTimeMin ≤ engine.laws.normalTimeMax := by
    have used := normal _ (run_laws ran)
    exact le_trans used.1 used.2
  refine ⟨accounted, fun now => ⟨?_, ?_⟩, fun spares moved => ?_⟩
  · obtain ⟨count, next, run⟩ : ∃ count next, engine.runDue now = .ok (count, next) :=
      runDue_ok fun _ => range
    exact ⟨count, next, run, runDue_corrected range accounted run⟩
  · obtain ⟨count, next, ticked⟩ : ∃ count next, engine.tick now = .ok (count, next) :=
      tick_ok fun _ => range
    exact ⟨count, next, ticked, tick_corrected range accounted ticked⟩
  · obtain ⟨low, high⟩ := normal laws (by simp)
    have recovering := run_recovering ran low high spares
    obtain ⟨attempt, last, under, pending⟩ := recovering.settles.resolve_left moved
    refine ⟨attempt, last, under, pending, fun now late count next fired => ?_⟩
    have reached (other : Attempt)
        (same : lastMove? (moments.flatMap Moment.attempts) = some other) :
        other.normalization.due ≤ now := by
      obtain rfl : attempt = other := Option.some.inj (last.symm.trans same)
      exact late
    rcases fired with run | ticked
    · exact recovering.runDue_isNormal (le_trans low high) run reached
    · obtain ⟨_, middle, run, -, rfl⟩ := tick_eq_ok.1 ticked
      have restored : laws.IsNormal middle.reality.timeSpeed :=
        recovering.runDue_isNormal (le_trans low high) run reached
      exact restored

-- A halving that fires after a rebuild, and a normalization that still waits.
theorem corrections_fire_once_rebuilt :
    let odds : Spell :=
      ⟨.probability, .ofKind .caster, ⟨.increase, 150⟩, 0, "", true, true, false, []⟩
    let haste : Spell := ⟨.time, .ofKind .caster, ⟨.increase, 150⟩, 0, "", true, true, false, []⟩
    let turns : List (UInt64 × Turn) := [(10, .operate (.cast [odds, haste])),
      (20, .operate (.override .probability 40.0)), (30, .rebuild {}), (5010, .operate .tick)]
    ∃ history,
      ((start {} (.ofSeed 0)).run turns = .ok history ∧
      (∀ entry ∈ turns, ∀ others, entry.2 ≠ .restart others) ∧
      ∀ used ∈ ({} : Laws) :: turns.filterMap (·.2.laws?),
        used.normalTimeMin ≤ 1.0 ∧ 1.0 ≤ used.normalTimeMax) ∧
      history.engine.pendingCorrections.Perm [⟨15010, .normalizeTime⟩] ∧
      ∀ now, ∃ count next, history.engine.tick now = .ok (count, next) ∧
        history.engine.Corrected now [⟨15010, .normalizeTime⟩] next := by
  intro odds haste turns
  have queued : ∀ entry ∈ turns, ∀ others, entry.2 ≠ .restart others := by
    simp [turns]
  have normal : ∀ used ∈ ({} : Laws) :: turns.filterMap (·.2.laws?),
      used.normalTimeMin ≤ 1.0 ∧ 1.0 ≤ used.normalTimeMax := by decide
  have waits : Moment.waiting (moments turns (start {} (.ofSeed 0))) =
      [⟨15010, .normalizeTime⟩] := by decide +kernel
  have succeeds : ((start {} (.ofSeed 0)).run turns).toOption.isSome = true := by decide +kernel
  cases ran : (start {} (.ofSeed 0)).run turns with
  | error fault =>
    rw [ran] at succeeds
    cases succeeds
  | ok history =>
    obtain ⟨accounted, fires, -⟩ :=
      corrections_fire_once {} (.ofSeed 0) turns history ran queued normal
    rw [waits] at accounted fires
    exact ⟨history, ⟨rfl, queued, normal⟩, accounted, fun now => (fires now).2⟩

end History

end Spellcraft
