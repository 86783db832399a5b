import Mathlib.Data.List.DropRight
import Mathlib.Data.List.Nodup
import Spellcraft.Chronicle
import Spellcraft.Proofs.Number.Sum

set_option autoImplicit false

namespace Spellcraft

inductive Report where
  | cast (caller script : String) (cost : UInt32)
  | feedback (kind : Feedback) (intensity : Option Float)
deriving DecidableEq

inductive Receipt where
  | refused
  | discovered (keywords : List Keyword)
  | integrity (left : Int32)
deriving Repr, DecidableEq

namespace Report

def isAccepted : Report → Bool
  | .cast _ script _ => !Text.allBlank script.toList
  | .feedback .. => true

def phenomenon (now : UInt64) (id : EffectId) : Report → Phenomenon
  | .cast _ script cost =>
    .spellCast id now cost (String.ofList (script.toList.take 50))
  | .feedback kind intensity => .feedback id now kind (intensity.getD 1.0)

def keywords (caller : String) : Report → List Keyword
  | .cast other script _ =>
    if other = caller ∧ Text.allBlank script.toList = false then
      Keyword.inText script.toList
    else []
  | .feedback .. => []

def strength? : Report → Option Float
  | .cast .. => none
  | .feedback _ intensity => some (intensity.getD 1.0)

def IsFinite (report : Report) : Prop :=
  ∀ strength ∈ report.strength?, strength.isFinite = true

instance (report : Report) : Decidable report.IsFinite :=
  inferInstanceAs (Decidable (∀ strength ∈ report.strength?, strength.isFinite = true))

end Report

def Receipt.told (caller : String) : Report → Receipt → List Keyword
  | .cast other .., .discovered keywords => if other = caller then keywords else []
  | _, _ => []

section FirstAppearance

variable {α : Type} [BEq α] [LawfulBEq α]

theorem eraseDups_of_nodup {items : List α} (distinct : items.Nodup) : items.eraseDups = items := by
  induction items with
  | nil => rfl
  | cons item rest ih =>
    obtain ⟨fresh, others⟩ := List.nodup_cons.1 distinct
    have kept : rest.filter (fun other => !other == item) = rest := by
      rw [List.filter_eq_self]
      intro other member
      have apart : other ≠ item := fun same => fresh (same ▸ member)
      simpa using apart
    rw [List.eraseDups_cons, kept, ih others]

theorem eraseDups_append_of_nodup (items : List α) {others : List α} (distinct : others.Nodup) :
    (items ++ others).eraseDups =
      items.eraseDups ++ others.filter fun other => !items.eraseDups.contains other := by
  have new : others.removeAll items =
      others.filter fun other => !items.eraseDups.contains other := by
    refine List.filter_congr fun other _ => ?_
    simp [List.elem_eq_contains]
  rw [List.eraseDups_append, new, eraseDups_of_nodup (distinct.filter _)]

theorem nodup_eraseDups (items : List α) : items.eraseDups.Nodup := by
  induction items using List.reverseRecOn with
  | nil => exact .nil
  | append_singleton items item ih =>
    rw [eraseDups_append_of_nodup items (List.nodup_singleton item)]
    refine ih.append ((List.nodup_singleton item).filter _) ?_
    intro other known fresh
    obtain ⟨-, unknown⟩ := List.mem_filter.1 fresh
    rw [List.contains_iff_mem.2 known] at unknown
    cases unknown

end FirstAppearance

theorem Keyword.inText_nodup (text : List Char) : (Keyword.inText text).Nodup :=
  .filter _ (by decide : Keyword.table.Nodup)

theorem rtake_rtake_concat {α : Type} (items : List α) (item : α) (count : Nat) :
    (items.rtake count ++ [item]).rtake count = (items ++ [item]).rtake count := by
  cases count with
  | zero => simp
  | succ count =>
    have fewer : (items.rtake (count + 1)).rtake count = items.rtake count := by
      simp only [List.rtake_eq_reverse_take_reverse, List.reverse_reverse, List.take_take,
        Nat.min_eq_left (Nat.le_succ count)]
    rw [List.rtake_concat_succ, List.rtake_concat_succ, fewer]

namespace Chronicle

def record (chronicle : Chronicle) (now : UInt64) : Report → Receipt × Chronicle
  | .cast caller script cost =>
    match chronicle.recordCast caller script cost now with
    | none => (.refused, chronicle)
    | some (fresh, next) => (.discovered fresh, next)
  | .feedback kind intensity =>
    let next := chronicle.recordFeedback kind intensity now
    (.integrity next.integrity, next)

def after (chronicle : Chronicle) (reports : List (UInt64 × Report)) : Chronicle :=
  reports.foldl (fun chronicle (now, report) => (chronicle.record now report).2) chronicle

def receipts : List (UInt64 × Report) → Chronicle → List Receipt
  | [], _ => []
  | (now, report) :: later, chronicle =>
    (chronicle.record now report).1 :: receipts later (chronicle.record now report).2

/-- The phenomena of the reports that are accepted, each with an identifier of its own. -/
def witnessed (ids : IdSupply) (reports : List (UInt64 × Report)) : List Phenomenon :=
  (reports.filter fun (_, report) => report.isAccepted).zipIdx.map fun ((now, report), count) =>
    report.phenomenon now (ids.draw (ids.used + count))

def scanned (caller : String) (reports : List (UInt64 × Report)) : List Keyword :=
  reports.flatMap fun (_, report) => report.keywords caller

def told (caller : String) (reports : List (UInt64 × Report)) (receipts : List Receipt) :
    List Keyword :=
  (reports.zip receipts).flatMap fun ((_, report), receipt) => receipt.told caller report

def passes (ids : IdSupply) (reports : List (UInt64 × Report)) (position : Nat) : Bool :=
  let level := ((new ids).after (reports.take position)).anomaly
  (reports[position]?.bind fun (_, report) => report.strength?).any fun strength =>
    10.0 < level + strength

def passings (ids : IdSupply) (reports : List (UInt64 × Report)) : Nat :=
  (List.range reports.length).countP (passes ids reports)

variable {chronicle : Chronicle} {ids : IdSupply} {reports : List (UInt64 × Report)}
  {now : UInt64} {report : Report} {caller : String}

section Step

theorem record_cast_blank {script : String} {cost : UInt32}
    (blank : Text.allBlank script.toList = true) :
    chronicle.record now (.cast caller script cost) = (.refused, chronicle) := by
  simp [record, recordCast, blank]

theorem record_phenomena (chronicle : Chronicle) (now : UInt64) (report : Report) :
    (chronicle.record now report).2.phenomena =
      if report.isAccepted then
        (chronicle.phenomena ++ [report.phenomenon now chronicle.ids.next]).rtake capacity
      else chronicle.phenomena := by
  cases report with
  | feedback kind intensity => rfl
  | cast other script cost =>
    by_cases blank : Text.allBlank script.toList = true
    · rw [record_cast_blank blank]
      simp [Report.isAccepted, blank]
    · simp [record, recordCast, Report.isAccepted, blank, keep, List.rtake, Report.phenomenon,
        fragmentLength]

theorem record_ids (chronicle : Chronicle) (now : UInt64) (report : Report) :
    (chronicle.record now report).2.ids =
      { chronicle.ids with used := chronicle.ids.used + if report.isAccepted then 1 else 0 } := by
  cases report with
  | feedback kind intensity => rfl
  | cast other script cost =>
    by_cases blank : Text.allBlank script.toList = true
    · rw [record_cast_blank blank]
      simp [Report.isAccepted, blank]
    · simp [record, recordCast, Report.isAccepted, blank, IdSupply.advance]

theorem lookup_filter_ne {α : Type} (found : List (String × α)) {other : String}
    (apart : caller ≠ other) :
    (found.filter (·.1 != other)).lookup caller = found.lookup caller := by
  induction found with
  | nil => rfl
  | cons entry rest ih =>
    rw [List.filter_cons]
    split
    · rw [List.lookup_cons, List.lookup_cons, ih]
    · next same =>
      have same : entry.1 = other := by simpa using same
      rw [ih, List.lookup_cons, same, beq_false_of_ne apart]

-- What is new to a caller is what its discoveries grow by, and what it is told.
theorem record_discoveries (chronicle : Chronicle) (now : UInt64) (report : Report)
    (caller : String) :
    let fresh := (report.keywords caller).filter fun keyword =>
      !(chronicle.discoveries caller).contains keyword
    (chronicle.record now report).2.discoveries caller = chronicle.discoveries caller ++ fresh ∧
      (chronicle.record now report).1.told caller report = fresh := by
  cases report with
  | feedback kind intensity => exact ⟨(List.append_nil _).symm, rfl⟩
  | cast other script cost =>
    by_cases blank : Text.allBlank script.toList = true
    · rw [record_cast_blank blank]
      simp [Report.keywords, blank, Receipt.told]
    · by_cases same : other = caller
      · subst same
        simp [record, recordCast, blank, Report.keywords, Receipt.told, discoveries]
      · have apart : (caller == other) = false := beq_false_of_ne (Ne.symm same)
        simp [record, recordCast, blank, Report.keywords, Receipt.told, discoveries, same,
          List.lookup_cons, apart, lookup_filter_ne _ (Ne.symm same)]

theorem record_anomaly (chronicle : Chronicle) (now : UInt64) (report : Report) :
    let past := report.strength?.any fun strength =>
      decide (10.0 < chronicle.anomaly + strength)
    (chronicle.record now report).2.anomaly =
      (if past then 0.0 else report.strength?.elim chronicle.anomaly (chronicle.anomaly + ·)) ∧
    (chronicle.record now report).2.integrity =
      if past then chronicle.integrity - integrityPenalty else chronicle.integrity := by
  cases report with
  | feedback kind intensity => exact ⟨rfl, rfl⟩
  | cast other script cost =>
    by_cases blank : Text.allBlank script.toList = true
    · rw [record_cast_blank blank]
      exact ⟨rfl, rfl⟩
    · simp [record, recordCast, blank, Report.strength?]

end Step

section Run

@[simp] theorem after_concat (chronicle : Chronicle) (reports : List (UInt64 × Report))
    (last : UInt64 × Report) :
    chronicle.after (reports ++ [last]) = ((chronicle.after reports).record last.1 last.2).2 := by
  simp [after]

theorem length_replies (reports : List (UInt64 × Report)) (chronicle : Chronicle) :
    (receipts reports chronicle).length = reports.length := by
  induction reports generalizing chronicle with
  | nil => rfl
  | cons first later ih => simp [receipts, ih]

theorem replies_concat (reports : List (UInt64 × Report)) (last : UInt64 × Report)
    (chronicle : Chronicle) :
    receipts (reports ++ [last]) chronicle =
      receipts reports chronicle ++ [((chronicle.after reports).record last.1 last.2).1] := by
  induction reports generalizing chronicle with
  | nil => rfl
  | cons first later ih => simp [receipts, ih, after]

theorem after_ids (ids : IdSupply) (reports : List (UInt64 × Report)) :
    ((new ids).after reports).ids =
      { ids with used := ids.used + reports.countP fun (_, report) => report.isAccepted } := by
  induction reports using List.reverseRecOn with
  | nil => rfl
  | append_singleton reports last ih =>
    rw [after_concat, record_ids, ih, List.countP_append, List.countP_singleton, Nat.add_assoc]

theorem witnessed_concat (ids : IdSupply) (reports : List (UInt64 × Report))
    (last : UInt64 × Report) :
    witnessed ids (reports ++ [last]) = witnessed ids reports ++
      if last.2.isAccepted then
        [last.2.phenomenon last.1 ((new ids).after reports).ids.next] else [] := by
  rw [after_ids]
  cases accepted : last.2.isAccepted with
  | false => simp [witnessed, accepted]
  | true =>
    simp [witnessed, accepted, IdSupply.next, List.zipIdx_append, List.countP_eq_length_filter]

theorem after_phenomena (ids : IdSupply) (reports : List (UInt64 × Report)) :
    ((new ids).after reports).phenomena = (witnessed ids reports).rtake capacity := by
  induction reports using List.reverseRecOn with
  | nil => rfl
  | append_singleton reports last ih =>
    rw [after_concat, record_phenomena, witnessed_concat, ih]
    split
    · exact rtake_rtake_concat ..
    · rw [List.append_nil]

theorem scanned_concat (caller : String) (reports : List (UInt64 × Report))
    (last : UInt64 × Report) :
    scanned caller (reports ++ [last]) = scanned caller reports ++ last.2.keywords caller := by
  simp [scanned]

theorem keywords_nodup (report : Report) (caller : String) : (report.keywords caller).Nodup := by
  cases report with
  | feedback kind intensity => exact .nil
  | cast other script cost =>
    rw [Report.keywords]
    split
    · exact Keyword.inText_nodup _
    · exact .nil

theorem after_discoveries (ids : IdSupply) (reports : List (UInt64 × Report)) (caller : String) :
    ((new ids).after reports).discoveries caller = (scanned caller reports).eraseDups ∧
      told caller reports (receipts reports (new ids)) =
        ((new ids).after reports).discoveries caller := by
  induction reports using List.reverseRecOn with
  | nil => exact ⟨rfl, rfl⟩
  | append_singleton reports last ih =>
    obtain ⟨known, so_far⟩ := ih
    obtain ⟨grown, told_last⟩ :=
      record_discoveries ((new ids).after reports) last.1 last.2 caller
    have told_all : told caller (reports ++ [last]) (receipts (reports ++ [last]) (new ids)) =
        told caller reports (receipts reports (new ids)) ++
          (((new ids).after reports).record last.1 last.2).1.told caller last.2 := by
      rw [replies_concat, told, List.zip_append (length_replies reports _).symm]
      simp [told]
    constructor
    · rw [after_concat, grown, known, scanned_concat,
        eraseDups_append_of_nodup _ (keywords_nodup last.2 caller)]
    · rw [told_all, so_far, told_last, after_concat, grown]

theorem passes_concat (ids : IdSupply) (reports : List (UInt64 × Report))
    (last : UInt64 × Report) {position : Nat} (earlier : position < reports.length) :
    passes ids (reports ++ [last]) position = passes ids reports position := by
  rw [passes, passes, List.take_append_of_le_length earlier.le,
    List.getElem?_append_left earlier]

theorem passes_last (ids : IdSupply) (reports : List (UInt64 × Report))
    (last : UInt64 × Report) :
    passes ids (reports ++ [last]) reports.length =
      last.2.strength?.any fun strength =>
        decide (10.0 < ((new ids).after reports).anomaly + strength) := by
  simp [passes]

theorem passings_concat (ids : IdSupply) (reports : List (UInt64 × Report))
    (last : UInt64 × Report) :
    passings ids (reports ++ [last]) =
      passings ids reports + if passes ids (reports ++ [last]) reports.length then 1 else 0 := by
  have earlier : (List.range reports.length).countP (passes ids (reports ++ [last])) =
      passings ids reports :=
    List.countP_congr fun position member => by
      rw [passes_concat ids reports last (List.mem_range.1 member)]
  rw [passings, List.length_append, List.length_singleton, List.range_succ, List.countP_append,
    earlier, List.countP_singleton]

theorem passings_le (ids : IdSupply) (reports : List (UInt64 × Report)) :
    passings ids reports ≤ reports.length := by
  have most : passings ids reports ≤ (List.range reports.length).length := List.countP_le_length
  rwa [List.length_range] at most

theorem after_anomaly_le (ids : IdSupply) {reports : List (UInt64 × Report)}
    (finite : ∀ entry ∈ reports, entry.2.IsFinite) :
    ((new ids).after reports).anomaly ≤ 10.0 := by
  induction reports using List.reverseRecOn with
  | nil =>
    change (0.0 : Float) ≤ 10.0
    decide
  | append_singleton reports last ih =>
    have below := ih fun entry member => finite entry (List.mem_append_left _ member)
    rw [after_concat, (record_anomaly _ last.1 last.2).1]
    split
    next => decide
    next within =>
      cases strength : last.2.strength? with
      | none => exact below
      | some strength' =>
        have last_finite : strength'.isFinite = true := finite last (by simp) strength' strength
        have number := Number.isNaN_add (Number.number_of_le below).1 last_finite
        refine Number.le_of_not_lt (by decide) number ?_
        simpa [strength] using within

theorem after_anomaly_take {reports : List (UInt64 × Report)} {position : Nat} {now : UInt64}
    {report : Report} (given : reports[position]? = some (now, report)) (ids : IdSupply) :
    ((new ids).after (reports.take (position + 1))).anomaly =
      if passes ids reports position then 0.0
      else report.strength?.elim ((new ids).after (reports.take position)).anomaly
        (((new ids).after (reports.take position)).anomaly + ·) := by
  rw [List.take_add_one, given, Option.toList_some, after_concat, (record_anomaly _ now report).1,
    passes, given, Option.bind_some]

-- Each loss is of five, so that below `2 ^ 28` reports the integrity stays far from its least
-- value.
theorem after_integrity (ids : IdSupply) {reports : List (UInt64 × Report)}
    (few : reports.length < 2 ^ 28) :
    ((new ids).after reports).integrity.toInt = 100 - 5 * passings ids reports := by
  induction reports using List.reverseRecOn with
  | nil => rfl
  | append_singleton reports last ih =>
    have fewer : reports.length + 1 < 2 ^ 28 := by simpa using few
    have most := passings_le ids reports
    have so_far := ih (by omega)
    rw [after_concat, (record_anomaly _ last.1 last.2).2, ← passes_last, passings_concat]
    split
    next past =>
      have penalty : integrityPenalty.toInt = 5 := rfl
      rw [Int32.toInt_sub, so_far, penalty, Int.bmod_eq_of_le (by omega) (by omega)]
      push_cast
      ring
    next => simpa using so_far

end Run

theorem reports_folded (ids : IdSupply) (reports : List (UInt64 × Report))
    (finite : ∀ entry ∈ reports, entry.2.IsFinite) (few : reports.length < 2 ^ 28) :
    let chronicle := (new ids).after reports
    let level (count : Nat) := ((new ids).after (reports.take count)).anomaly
    chronicle.phenomena = (witnessed ids reports).rtake 10 ∧
    (∀ caller, chronicle.discoveries caller = (scanned caller reports).eraseDups ∧
      (chronicle.discoveries caller).Nodup ∧
      told caller reports (receipts reports (new ids)) = chronicle.discoveries caller) ∧
    (∀ count, level count ≤ 10.0) ∧
    chronicle.integrity.toInt = 100 - 5 * passings ids reports ∧
    (∀ position now report, reports[position]? = some (now, report) →
      level (position + 1) =
        if passes ids reports position then 0.0
        else report.strength?.elim (level position) (level position + ·)) ∧
    ∀ now caller script cost, Text.allBlank script.toList = true →
      chronicle.record now (.cast caller script cost) = (.refused, chronicle) := by
  refine ⟨after_phenomena ids reports, fun caller => ?_, fun count => ?_, after_integrity ids few,
    fun position now report given => after_anomaly_take given ids,
    fun now caller script cost blank => record_cast_blank blank⟩
  · obtain ⟨known, told_known⟩ := after_discoveries ids reports caller
    exact ⟨known, known ▸ nodup_eraseDups _, told_known⟩
  · exact after_anomaly_le ids fun entry member => finite entry (List.mem_of_mem_take member)

-- The second script of the first caller is longer than what is kept of it.
theorem reports_folded_two_callers :
    let ids := IdSupply.ofSeed 3
    let long := "intent: \"kernel.space and paradox.engine, one after the other\""
    let reports : List (UInt64 × Report) :=
      [(1, .cast "ada" "PARADOX.engine" 5), (2, .cast "bob" "Kernel.Space" 3),
        (3, .cast "ada" " \t" 9), (4, .feedback .paradox (some 9.5)),
        (5, .cast "ada" long 7), (6, .feedback .timeLoop none)] ++
      List.replicate 7 (8, .feedback .realityFracture (some (-0.25)))
    let chronicle := (new ids).after reports
    ((∀ entry ∈ reports, entry.2.IsFinite) ∧ reports.length < 2 ^ 28) ∧
    50 < long.length ∧
    chronicle.phenomena =
      [.feedback (ids.draw 2) 4 .paradox 9.5,
        .spellCast (ids.draw 3) 5 7 "intent: \"kernel.space and paradox.engine, one afte",
        .feedback (ids.draw 4) 6 .timeLoop 1.0] ++
      (List.range 7).map (fun count =>
        .feedback (ids.draw (5 + count)) 8 .realityFracture (-0.25)) ∧
    chronicle.discoveries "ada" = [.paradoxEngine, .kernelSpace] ∧
    chronicle.discoveries "bob" = [.kernelSpace] ∧
    told "ada" reports (receipts reports (new ids)) = [.paradoxEngine, .kernelSpace] ∧
    chronicle.integrity.toInt = 95 ∧
    ((new ids).after (reports.take 6)).anomaly = 0.0 ∧ chronicle.anomaly ≤ 10.0 := by
  intro ids long reports chronicle
  have finite : ∀ entry ∈ reports, entry.2.IsFinite := by decide +kernel
  have few : reports.length < 2 ^ 28 := by decide
  obtain ⟨phenomena, found, level, integrity, restarts, -⟩ := reports_folded ids reports finite few
  have ada : (scanned "ada" reports).eraseDups = [.paradoxEngine, .kernelSpace] := by
    decide +kernel
  have bob : (scanned "bob" reports).eraseDups = [.kernelSpace] := by decide +kernel
  have once : passings ids reports = 1 ∧ passes ids reports 5 = true := by decide +kernel
  refine ⟨⟨finite, few⟩, by decide, ?_, (found "ada").1.trans ada, (found "bob").1.trans bob,
    (found "ada").2.2.trans ((found "ada").1.trans ada), ?_, ?_, ?_⟩
  · rw [phenomena]
    decide +kernel
  · rw [integrity, once.1]
    rfl
  · have restarted := restarts 5 6 (.feedback .timeLoop none) rfl
    rwa [once.2, if_pos rfl] at restarted
  · exact level reports.length

end Chronicle

end Spellcraft
