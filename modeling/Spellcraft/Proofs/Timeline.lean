import Mathlib.Data.List.TakeWhile
import Spellcraft.Timeline

set_option autoImplicit false

namespace Spellcraft.Timeline

attribute [ext] Timeline

theorem enqueue_perm (entry : PendingTask) (pending : List PendingTask) :
    (enqueue entry pending).Perm (entry :: pending) := by
  induction pending with
  | nil => simp [enqueue]
  | cons first rest ih =>
    by_cases sooner : entry.due < first.due
    · simp [enqueue, sooner]
    · simpa [enqueue, sooner] using (ih.cons first).trans (.swap entry first rest)

theorem sublist_enqueue (entry : PendingTask) (pending : List PendingTask) :
    pending.Sublist (enqueue entry pending) := by
  induction pending with
  | nil => simp
  | cons first rest ih =>
    by_cases sooner : entry.due < first.due
    · simp [enqueue, sooner]
    · simpa [enqueue, sooner] using ih

theorem enqueue_latest {entry : PendingTask} {pending : List PendingTask}
    (latest : ∀ other ∈ pending, other.due ≤ entry.due) :
    enqueue entry pending = pending ++ [entry] := by
  induction pending with
  | nil => rfl
  | cons first rest ih =>
    have not_sooner : ¬ entry.due < first.due := UInt64.not_lt.2 (latest first (by simp))
    have later := ih fun other member => latest other (List.mem_cons_of_mem _ member)
    simp [enqueue, not_sooner, later]

theorem filter_enqueue_of_neg {keep : PendingTask → Bool} {entry : PendingTask}
    (left_out : keep entry = false) (pending : List PendingTask) :
    (enqueue entry pending).filter keep = pending.filter keep := by
  induction pending with
  | nil => simp [enqueue, left_out]
  | cons first rest ih =>
    by_cases sooner : entry.due < first.due
    · simp [enqueue, sooner, left_out]
    · simp [enqueue, sooner, List.filter_cons, ih]

-- An entry goes behind the same entries when some of the others are left out.
theorem filter_enqueue_of_pos {keep : PendingTask → Bool} {entry : PendingTask}
    (kept : keep entry = true) {pending : List PendingTask}
    (ordered : pending.Pairwise fun earlier later => earlier.due ≤ later.due) :
    (enqueue entry pending).filter keep = enqueue entry (pending.filter keep) := by
  induction pending with
  | nil => simp [enqueue, kept]
  | cons first rest ih =>
    obtain ⟨below, others⟩ := List.pairwise_cons.1 ordered
    by_cases sooner : entry.due < first.due
    · have soonest : enqueue entry ((first :: rest).filter keep) =
          entry :: (first :: rest).filter keep := by
        cases left : (first :: rest).filter keep with
        | nil => rfl
        | cons next later =>
          have member : next ∈ first :: rest :=
            (List.mem_filter.1 (left ▸ List.mem_cons_self : next ∈ (first :: rest).filter keep)).1
          have next_later : entry.due < next.due := by
            rcases List.mem_cons.1 member with rfl | behind
            · exact sooner
            · exact UInt64.lt_of_lt_of_le sooner (below next behind)
          simp [enqueue, next_later]
      rw [soonest, enqueue, if_pos sooner, List.filter_cons_of_pos kept]
    · rw [enqueue, if_neg sooner, List.filter_cons, List.filter_cons, ih others]
      split
      · rw [enqueue, if_neg sooner]
      · rfl

@[simp] theorem scheduleAll_nil (timeline : Timeline) : timeline.scheduleAll [] = timeline := rfl

@[simp] theorem scheduleAll_cons (timeline : Timeline) (entry : PendingTask)
    (entries : List PendingTask) :
    timeline.scheduleAll (entry :: entries) =
      (timeline.schedule entry.due entry.task).scheduleAll entries := rfl

theorem scheduleAll_perm (timeline : Timeline) (entries : List PendingTask) :
    (timeline.scheduleAll entries).pending.Perm (timeline.pending ++ entries) := by
  induction entries generalizing timeline with
  | nil => simp
  | cons entry rest ih =>
    have placed : (timeline.schedule entry.due entry.task).pending.Perm
        (entry :: timeline.pending) :=
      enqueue_perm entry timeline.pending
    exact (ih _).trans ((placed.append_right rest).trans List.perm_middle.symm)

theorem sublist_scheduleAll (timeline : Timeline) (entries : List PendingTask) :
    timeline.pending.Sublist (timeline.scheduleAll entries).pending := by
  induction entries generalizing timeline with
  | nil => simp
  | cons entry rest ih =>
    have placed := sublist_enqueue entry timeline.pending
    exact placed.trans (ih (timeline.schedule entry.due entry.task))

def restrict (keep : PendingTask → Bool) (timeline : Timeline) : Timeline :=
  ⟨timeline.pending.filter keep, timeline.ordered.filter keep⟩

@[simp] theorem restrict_pending (keep : PendingTask → Bool) (timeline : Timeline) :
    (timeline.restrict keep).pending = timeline.pending.filter keep := rfl

theorem restrict_scheduleAll (keep : PendingTask → Bool) (timeline : Timeline)
    (entries : List PendingTask) :
    (timeline.scheduleAll entries).restrict keep =
      (timeline.restrict keep).scheduleAll (entries.filter keep) := by
  induction entries generalizing timeline with
  | nil => rfl
  | cons entry rest ih =>
    rw [scheduleAll_cons, ih, List.filter_cons]
    cases kept : keep entry with
    | true =>
      have placed : (timeline.schedule entry.due entry.task).restrict keep =
          (timeline.restrict keep).schedule entry.due entry.task := by
        ext1
        exact filter_enqueue_of_pos kept timeline.ordered
      rw [if_pos rfl, placed, scheduleAll_cons]
    | false =>
      have left_out : (timeline.schedule entry.due entry.task).restrict keep =
          timeline.restrict keep := by
        ext1
        exact filter_enqueue_of_neg kept timeline.pending
      rw [if_neg (by decide), left_out]

theorem filter_scheduleAll_of_neg {keep : PendingTask → Bool} {entries : List PendingTask}
    (left_out : ∀ entry ∈ entries, keep entry = false) (timeline : Timeline) :
    (timeline.scheduleAll entries).pending.filter keep = timeline.pending.filter keep := by
  have none_kept : entries.filter keep = [] :=
    List.filter_eq_nil_iff.2 fun entry member => by simp [left_out entry member]
  have restricted := congrArg pending (restrict_scheduleAll keep timeline entries)
  rwa [none_kept] at restricted

-- The entries are given in order, so each one goes behind all those before it.
theorem scheduleAll_pending {timeline : Timeline} {entries : List PendingTask}
    (ordered : (timeline.pending ++ entries).Pairwise fun earlier later =>
      earlier.due ≤ later.due) :
    (timeline.scheduleAll entries).pending = timeline.pending ++ entries := by
  induction entries generalizing timeline with
  | nil => simp
  | cons entry rest ih =>
    have placed : (timeline.schedule entry.due entry.task).pending =
        timeline.pending ++ [entry] := by
      refine enqueue_latest fun other member => ?_
      exact (List.pairwise_append.1 ordered).2.2 other member entry (by simp)
    have regrouped : timeline.pending ++ entry :: rest =
        (timeline.schedule entry.due entry.task).pending ++ rest := by simp [placed]
    rw [regrouped] at ordered ⊢
    exact ih ordered

@[simp] theorem ofList_pending (timeline : Timeline) : ofList timeline.pending = timeline := by
  have rebuilt : (ofList timeline.pending).pending = empty.pending ++ timeline.pending :=
    scheduleAll_pending (by simpa [empty] using timeline.ordered)
  ext1
  simpa [empty] using rebuilt

def elapsed (timeline : Timeline) (now : UInt64) : List PendingTask :=
  timeline.pending.takeWhile (·.due ≤ now)

theorem due_eq_elapsed (timeline : Timeline) (now : UInt64) :
    timeline.due now = (timeline.elapsed now).map PendingTask.task := rfl

theorem elapsed_append_after (timeline : Timeline) (now : UInt64) :
    timeline.elapsed now ++ (timeline.after now).pending = timeline.pending :=
  List.takeWhile_append_dropWhile

theorem popDue_eq_none {timeline : Timeline} {now : UInt64}
    (idle : timeline.popDue now = none) :
    timeline.due now = [] ∧ timeline.after now = timeline := by
  rcases timeline with ⟨_ | ⟨first, rest⟩, ordered⟩
  · exact ⟨rfl, rfl⟩
  · by_cases late : first.due ≤ now
    · simp [popDue, late] at idle
    · simp [due, after, late]

theorem popDue_eq_some {timeline rest : Timeline} {now : UInt64} {task : Task}
    (popped : timeline.popDue now = some (task, rest)) :
    timeline.due now = task :: rest.due now ∧ timeline.after now = rest.after now := by
  rcases timeline with ⟨_ | ⟨first, others⟩, ordered⟩
  · simp [popDue] at popped
  · by_cases late : first.due ≤ now
    · simp only [popDue, List.head?_cons, late, if_true, Option.some.injEq, Prod.mk.injEq] at popped
      obtain ⟨rfl, rfl⟩ := popped
      simp [due, after, Timeline.rest, late]
    · simp [popDue, late] at popped

theorem popDue_pending {timeline rest : Timeline} {now : UInt64} {task : Task}
    (popped : timeline.popDue now = some (task, rest)) :
    ∃ entry, entry.task = task ∧ entry.due ≤ now ∧ timeline.pending = entry :: rest.pending := by
  rcases timeline with ⟨_ | ⟨first, others⟩, ordered⟩
  · simp [popDue] at popped
  · by_cases late : first.due ≤ now
    · simp only [popDue, List.head?_cons, late, if_true, Option.some.injEq, Prod.mk.injEq] at popped
      obtain ⟨rfl, rfl⟩ := popped
      exact ⟨first, rfl, late, rfl⟩
    · simp [popDue, late] at popped

theorem due_of_mem_elapsed {timeline : Timeline} {now : UInt64} {entry : PendingTask}
    (member : entry ∈ timeline.elapsed now) : entry.due ≤ now := by
  simpa using List.mem_takeWhile_imp member

-- The first entry that stays is not due, and no other one comes before it.
theorem due_of_mem_after {timeline : Timeline} {now : UInt64} {entry : PendingTask}
    (member : entry ∈ (timeline.after now).pending) : now < entry.due := by
  cases left : (timeline.after now).pending with
  | nil => simp [left] at member
  | cons first rest =>
    have first_later : now < first.due := by
      have kept := List.head?_dropWhile_not (fun entry => decide (entry.due ≤ now)) timeline.pending
      rw [show timeline.pending.dropWhile _ = first :: rest from left] at kept
      simpa [UInt64.not_le] using kept
    have ordered := (timeline.after now).ordered
    rw [left] at member ordered
    rcases List.mem_cons.1 member with rfl | later
    · exact first_later
    · exact UInt64.lt_of_lt_of_le first_later ((List.pairwise_cons.1 ordered).1 entry later)

theorem filter_pending (keep : PendingTask → Bool) (timeline : Timeline) (now : UInt64) :
    timeline.pending.filter keep =
      (timeline.elapsed now).filter keep ++ (timeline.after now).pending.filter keep := by
  rw [← List.filter_append, elapsed_append_after]

theorem after_pending_eq_filter (timeline : Timeline) (now : UInt64) :
    (timeline.after now).pending =
      timeline.pending.filter fun entry => decide (now < entry.due) := by
  have gone : (timeline.elapsed now).filter (fun entry => decide (now < entry.due)) = [] := by
    rw [List.filter_eq_nil_iff]
    intro entry member
    simpa [UInt64.not_lt] using due_of_mem_elapsed member
  have kept : (timeline.after now).pending.filter (fun entry => decide (now < entry.due)) =
      (timeline.after now).pending := by
    rw [List.filter_eq_self]
    intro entry member
    simpa using due_of_mem_after member
  rw [filter_pending _ timeline now, gone, kept, List.nil_append]

theorem elapsed_eq_filter (timeline : Timeline) (now : UInt64) :
    timeline.elapsed now = timeline.pending.filter fun entry => decide (entry.due ≤ now) := by
  have gone : (timeline.after now).pending.filter (fun entry => decide (entry.due ≤ now)) = [] := by
    rw [List.filter_eq_nil_iff]
    intro entry member
    simpa [UInt64.not_le] using due_of_mem_after member
  have kept : (timeline.elapsed now).filter (fun entry => decide (entry.due ≤ now)) =
      timeline.elapsed now := by
    rw [List.filter_eq_self]
    intro entry member
    simpa using due_of_mem_elapsed member
  rw [filter_pending _ timeline now, gone, kept, List.append_nil]

theorem restrict_after (keep : PendingTask → Bool) (timeline : Timeline) (now : UInt64) :
    (timeline.after now).restrict keep = (timeline.restrict keep).after now := by
  ext1
  rw [restrict_pending, after_pending_eq_filter, after_pending_eq_filter, restrict_pending,
    List.filter_filter, List.filter_filter]
  simp only [Bool.and_comm]

theorem after_after {earlier later : UInt64} (before : earlier ≤ later) (timeline : Timeline) :
    (timeline.after earlier).after later = timeline.after later := by
  ext1
  simp only [after_pending_eq_filter, List.filter_filter, ← Bool.decide_and]
  refine List.filter_congr fun entry _ => decide_eq_decide.2 ?_
  exact ⟨And.left, fun late => ⟨late, UInt64.lt_of_le_of_lt before late⟩⟩

theorem elapsed_append {earlier later : UInt64} (before : earlier ≤ later) (timeline : Timeline) :
    timeline.elapsed earlier ++ (timeline.after earlier).elapsed later =
      timeline.elapsed later := by
  have parts : timeline.elapsed earlier ++ (timeline.after earlier).elapsed later ++
      (timeline.after later).pending = timeline.pending := by
    rw [List.append_assoc, ← after_after before, elapsed_append_after, elapsed_append_after]
  exact List.append_cancel_right (parts.trans (elapsed_append_after timeline later).symm)

theorem due_append {earlier later : UInt64} (before : earlier ≤ later) (timeline : Timeline) :
    timeline.due later = timeline.due earlier ++ (timeline.after earlier).due later := by
  simp only [due_eq_elapsed, ← List.map_append, elapsed_append before]

end Spellcraft.Timeline
