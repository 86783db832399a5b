import Spellcraft.EffectId

set_option autoImplicit false

namespace Spellcraft

/-- What happens later. A task acts on reality as it is when it fires. -/
inductive Task where
  | expireEffect (id : EffectId)
  | halveProbability
  | normalizeTime
deriving Repr, DecidableEq

structure PendingTask where
  due : UInt64
  task : Task
deriving Repr, DecidableEq

structure Timeline where
  pending : List PendingTask
  ordered : pending.Pairwise fun earlier later => earlier.due ≤ later.due
deriving DecidableEq

namespace Timeline

def empty : Timeline :=
  ⟨[], .nil⟩

-- Behind every task that is due no later.
def enqueue (entry : PendingTask) : List PendingTask → List PendingTask
  | [] => [entry]
  | first :: rest =>
    if entry.due < first.due then entry :: first :: rest else first :: enqueue entry rest

theorem mem_enqueue {entry other : PendingTask} {pending : List PendingTask} :
    other ∈ enqueue entry pending ↔ other = entry ∨ other ∈ pending := by
  induction pending with
  | nil => simp [enqueue]
  | cons first rest ih =>
    simp only [enqueue]
    split
    · simp
    · simp only [List.mem_cons, ih]
      exact ⟨by rintro (h | h | h) <;> simp [h], by rintro (h | h | h) <;> simp [h]⟩

theorem enqueue_ordered (entry : PendingTask) {pending : List PendingTask}
    (ordered : pending.Pairwise fun earlier later => earlier.due ≤ later.due) :
    (enqueue entry pending).Pairwise fun earlier later => earlier.due ≤ later.due := by
  induction pending with
  | nil => simp [enqueue]
  | cons first rest ih =>
    obtain ⟨below, others⟩ := List.pairwise_cons.1 ordered
    simp only [enqueue]
    split
    · next sooner =>
      refine List.pairwise_cons.2 ⟨?_, ordered⟩
      intro other member
      rcases List.mem_cons.1 member with rfl | later
      · exact UInt64.le_of_lt sooner
      · exact UInt64.le_trans (UInt64.le_of_lt sooner) (below other later)
    · next not_sooner =>
      refine List.pairwise_cons.2 ⟨?_, ih others⟩
      intro other member
      rcases mem_enqueue.1 member with rfl | old
      · exact UInt64.not_lt.1 not_sooner
      · exact below other old

def schedule (timeline : Timeline) (due : UInt64) (task : Task) : Timeline :=
  ⟨enqueue ⟨due, task⟩ timeline.pending, enqueue_ordered _ timeline.ordered⟩

def scheduleAll (timeline : Timeline) (entries : List PendingTask) : Timeline :=
  entries.foldl (fun timeline entry => timeline.schedule entry.due entry.task) timeline

def ofList (entries : List PendingTask) : Timeline :=
  empty.scheduleAll entries

def size (timeline : Timeline) : Nat :=
  timeline.pending.length

def isEmpty (timeline : Timeline) : Bool :=
  timeline.pending.isEmpty

def nextDue? (timeline : Timeline) : Option UInt64 :=
  timeline.pending.head?.map PendingTask.due

def rest (timeline : Timeline) : Timeline :=
  ⟨timeline.pending.tail, timeline.ordered.sublist (List.tail_sublist _)⟩

def popDue (timeline : Timeline) (now : UInt64) : Option (Task × Timeline) :=
  match timeline.pending.head? with
  | none => none
  | some first => if first.due ≤ now then some (first.task, timeline.rest) else none

def due (timeline : Timeline) (now : UInt64) : List Task :=
  (timeline.pending.takeWhile (·.due ≤ now)).map PendingTask.task

def after (timeline : Timeline) (now : UInt64) : Timeline :=
  ⟨timeline.pending.dropWhile (·.due ≤ now),
    timeline.ordered.sublist (List.dropWhile_sublist _)⟩

end Timeline

end Spellcraft
