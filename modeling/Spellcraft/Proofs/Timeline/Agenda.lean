import Mathlib.Data.List.Sort
import Spellcraft.Proofs.Timeline

set_option autoImplicit false

namespace Spellcraft.Agenda

def noLater (first second : PendingTask) : Bool :=
  decide (first.due ≤ second.due)

def sort (entries : List PendingTask) : List PendingTask :=
  entries.mergeSort noLater

def schedule (entry : PendingTask) (agenda : List PendingTask) : List PendingTask :=
  sort (agenda ++ [entry])

def popDue (now : UInt64) : List PendingTask → Option Task × List PendingTask
  | [] => (none, [])
  | first :: rest => if first.due ≤ now then (some first.task, rest) else (none, first :: rest)

def dueAt (due : UInt64) (entries : List PendingTask) : List PendingTask :=
  entries.filter (·.due == due)

def Ordered (entries : List PendingTask) : Prop :=
  entries.Pairwise fun earlier later => earlier.due ≤ later.due

@[simp] theorem dueAt_nil (due : UInt64) : dueAt due [] = [] := rfl

theorem dueAt_cons (due : UInt64) (first : PendingTask) (rest : List PendingTask) :
    dueAt due (first :: rest) = if first.due = due then first :: dueAt due rest
      else dueAt due rest := by
  simp [dueAt, List.filter_cons]

@[simp] theorem dueAt_append (due : UInt64) (left right : List PendingTask) :
    dueAt due (left ++ right) = dueAt due left ++ dueAt due right :=
  List.filter_append left right

theorem mem_dueAt {due : UInt64} {entry : PendingTask} {entries : List PendingTask} :
    entry ∈ dueAt due entries ↔ entry ∈ entries ∧ entry.due = due := by
  simp [dueAt]

theorem noLater_trans (first second third : PendingTask) (before : noLater first second = true)
    (after : noLater second third = true) : noLater first third = true := by
  simp only [noLater, decide_eq_true_eq] at before after ⊢
  exact UInt64.le_trans before after

theorem noLater_total (first second : PendingTask) :
    (noLater first second || noLater second first) = true := by
  simpa [noLater] using UInt64.le_total first.due second.due

theorem sort_ordered (entries : List PendingTask) : Ordered (sort entries) := by
  have sorted := List.pairwise_mergeSort noLater_trans noLater_total entries
  exact sorted.imp fun before => of_decide_eq_true before

-- The entries of one due time are in no order that sorting could change.
theorem dueAt_sort (due : UInt64) (entries : List PendingTask) :
    dueAt due (sort entries) = dueAt due entries := by
  have level : (dueAt due entries).Pairwise fun first second => noLater first second = true := by
    apply List.pairwise_of_forall_mem_list
    intro first first_member second second_member
    simp [noLater, (mem_dueAt.1 first_member).2, (mem_dueAt.1 second_member).2]
  have kept : (dueAt due entries).Sublist (sort entries) :=
    List.sublist_mergeSort noLater_trans noLater_total level List.filter_sublist
  have within : (dueAt due entries).Sublist (dueAt due (sort entries)) := by
    simpa [dueAt] using kept.filter (·.due == due)
  have same_length := ((List.mergeSort_perm entries noLater).filter (·.due == due)).length_eq
  exact (within.eq_of_length same_length.symm).symm

theorem mem_iff_of_dueAt {left right : List PendingTask}
    (same : ∀ due, dueAt due left = dueAt due right) (entry : PendingTask) :
    entry ∈ left ↔ entry ∈ right := by
  have level : entry ∈ dueAt entry.due left ↔ entry ∈ dueAt entry.due right := by rw [same]
  simpa [mem_dueAt] using level

theorem perm_of_dueAt {left right : List PendingTask}
    (same : ∀ due, dueAt due left = dueAt due right) : left.Perm right := by
  rw [List.perm_iff_count]
  intro entry
  have level (entries : List PendingTask) :
      (dueAt entry.due entries).count entry = entries.count entry :=
    List.count_filter (by simp)
  rw [← level left, same, level]

theorem Ordered.le_head {first entry : PendingTask} {rest : List PendingTask}
    (ordered : Ordered (first :: rest)) (member : entry ∈ first :: rest) :
    first.due ≤ entry.due := by
  rcases List.mem_cons.1 member with rfl | behind
  · exact UInt64.le_refl _
  · exact (List.pairwise_cons.1 ordered).1 entry behind

theorem eq_of_dueAt {left right : List PendingTask} (left_ordered : Ordered left)
    (right_ordered : Ordered right) (same : ∀ due, dueAt due left = dueAt due right) :
    left = right := by
  have shared := mem_iff_of_dueAt same
  induction left generalizing right with
  | nil => exact (List.eq_nil_iff_forall_not_mem.2 fun entry => by simp [← shared entry]).symm
  | cons first rest ih =>
    cases right with
    | nil => simpa using shared first
    | cons other others =>
      -- Each of the two heads is least, so they are due at one time, at which the lists agree.
      have level : first.due = other.due :=
        UInt64.le_antisymm (left_ordered.le_head ((shared other).2 (by simp)))
          (right_ordered.le_head ((shared first).1 (by simp)))
      have heads := same other.due
      simp only [dueAt_cons, level, if_true, List.cons.injEq] at heads
      obtain ⟨rfl, -⟩ := heads
      have tails (due : UInt64) : dueAt due rest = dueAt due others := by
        have whole := same due
        simp only [dueAt_cons] at whole
        split at whole
        · exact (List.cons.inj whole).2
        · exact whole
      rw [ih (List.pairwise_cons.1 left_ordered).2 (List.pairwise_cons.1 right_ordered).2 tails
        (mem_iff_of_dueAt tails)]

theorem dueAt_enqueue {pending : List PendingTask} (ordered : Ordered pending)
    (entry : PendingTask) (due : UInt64) :
    dueAt due (Timeline.enqueue entry pending) = dueAt due (pending ++ [entry]) := by
  induction pending with
  | nil => rfl
  | cons first rest ih =>
    by_cases sooner : entry.due < first.due
    · -- Whatever is due when the new entry is would have to stand before it.
      have alone (level : entry.due = due) : dueAt due (first :: rest) = [] := by
        rw [List.eq_nil_iff_forall_not_mem]
        intro other member
        obtain ⟨present, same⟩ := mem_dueAt.1 member
        have later := UInt64.lt_of_lt_of_le sooner (ordered.le_head present)
        exact UInt64.lt_irrefl _ (same.trans level.symm ▸ later)
      rw [Timeline.enqueue, if_pos sooner, dueAt_append, dueAt_cons, dueAt_cons due entry []]
      by_cases level : entry.due = due
      · simp [level, alone level]
      · simp [level]
    · rw [Timeline.enqueue, if_neg sooner, List.cons_append, dueAt_cons, dueAt_cons,
        ih (List.pairwise_cons.1 ordered).2]

theorem schedule_eq_enqueue {pending : List PendingTask} (ordered : Ordered pending)
    (entry : PendingTask) : schedule entry pending = Timeline.enqueue entry pending := by
  apply eq_of_dueAt (sort_ordered (pending ++ [entry])) (Timeline.enqueue_ordered entry ordered)
  intro due
  rw [dueAt_sort, dueAt_enqueue ordered]

theorem dueAt_scheduleAll (timeline : Timeline) (entries : List PendingTask) (due : UInt64) :
    dueAt due (timeline.scheduleAll entries).pending = dueAt due (timeline.pending ++ entries) := by
  induction entries generalizing timeline with
  | nil => simp
  | cons entry rest ih =>
    have placed : dueAt due (timeline.schedule entry.due entry.task).pending =
        dueAt due (timeline.pending ++ [entry]) :=
      dueAt_enqueue timeline.ordered entry due
    rw [Timeline.scheduleAll_cons, ih, dueAt_append, placed, ← dueAt_append, List.append_assoc,
      List.singleton_append]

theorem sort_eq_ofList (entries : List PendingTask) :
    sort entries = (Timeline.ofList entries).pending := by
  apply eq_of_dueAt (sort_ordered _) (Timeline.ofList entries).ordered
  intro due
  rw [dueAt_sort, Timeline.ofList, dueAt_scheduleAll]
  rfl

end Spellcraft.Agenda
