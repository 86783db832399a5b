import Mathlib.Data.List.MinMax
import Mathlib.Data.List.Sort
import Mathlib.Data.Prod.Lex
import Spellcraft.Proofs.Timeline

set_option autoImplicit false

namespace Spellcraft

/-- A heap by what it promises: it holds what was put in, and gives up an entry of least key. -/
structure Heap {Entry Key : Type} [LE Key] (key : Entry → Key) where
  Shelf : Type
  empty : Shelf
  push : Entry → Shelf → Shelf
  peek : Shelf → Option Entry
  pop : Shelf → Option (Entry × Shelf)
  -- In no particular order.
  entries : Shelf → List Entry
  entries_empty : entries empty = []
  entries_push : ∀ entry shelf, (entries (push entry shelf)).Perm (entry :: entries shelf)
  peek_none : ∀ shelf, peek shelf = none → entries shelf = []
  peek_some : ∀ shelf entry, peek shelf = some entry →
    entry ∈ entries shelf ∧ ∀ other ∈ entries shelf, key entry ≤ key other
  pop_none : ∀ shelf, pop shelf = none → entries shelf = []
  pop_some : ∀ shelf entry rest, pop shelf = some (entry, rest) →
    (entries shelf).Perm (entry :: entries rest) ∧ ∀ other ∈ entries shelf, key entry ≤ key other

def Heap.ofLists {Entry Key : Type} [DecidableEq Entry] [LinearOrder Key] (key : Entry → Key) :
    Heap key where
  Shelf := List Entry
  empty := []
  push := List.cons
  peek := List.argmin key
  pop shelf := (shelf.argmin key).map fun least => (least, shelf.erase least)
  entries := id
  entries_empty := rfl
  entries_push _ _ := .refl _
  peek_none _ none_least := List.argmin_eq_none.1 none_least
  peek_some _ _ least :=
    ⟨List.argmin_mem least, fun _ member => List.le_of_mem_argmin member least⟩
  pop_none _ none_least := List.argmin_eq_none.1 (Option.map_eq_none_iff.1 none_least)
  pop_some _ _ _ popped := by
    obtain ⟨least, found, same⟩ := Option.map_eq_some_iff.1 popped
    cases same
    exact ⟨List.perm_cons_erase (List.argmin_mem found),
      fun _ member => List.le_of_mem_argmin member found⟩

structure Ticket where
  due : UInt64
  number : UInt64
  task : Task
deriving DecidableEq

-- Expiries come first, by their identifiers.
def Task.key : Task → Nat ×ₗ Nat
  | .expireEffect id => toLex (0, id.value.toNat)
  | .halveProbability => toLex (1, 0)
  | .normalizeTime => toLex (2, 0)

theorem Task.key_injective : Function.Injective Task.key := by
  rintro (⟨⟨value⟩⟩ | _ | _) (⟨⟨other⟩⟩ | _ | _) same
  case expireEffect.expireEffect =>
    have same_value : value = other := BitVec.eq_of_toNat_eq (by simpa [key] using same)
    rw [same_value]
  all_goals first | rfl | simp [key] at same

namespace Ticket

def key (ticket : Ticket) : Nat ×ₗ Nat ×ₗ Nat ×ₗ Nat :=
  toLex (ticket.due.toNat, toLex (ticket.number.toNat, ticket.task.key))

def noLater (first second : Ticket) : Bool :=
  decide (first.key ≤ second.key)

def entry (ticket : Ticket) : PendingTask :=
  ⟨ticket.due, ticket.task⟩

def Ahead (first second : Ticket) : Prop :=
  first.due < second.due ∨ first.due = second.due ∧ first.number < second.number

theorem Ahead.key_lt {first second : Ticket} (ahead : first.Ahead second) :
    first.key < second.key := by
  rw [key, key, Prod.Lex.toLex_lt_toLex]
  rcases ahead with sooner | ⟨level, earlier⟩
  · exact .inl (UInt64.lt_iff_toNat_lt.1 sooner)
  · exact .inr ⟨congrArg UInt64.toNat level,
      Prod.Lex.toLex_lt_toLex.2 (.inl (UInt64.lt_iff_toNat_lt.1 earlier))⟩

theorem Ahead.trans {first second third : Ticket} (left : first.Ahead second)
    (right : second.Ahead third) : first.Ahead third := by
  unfold Ahead at *
  grind

theorem noLater_trans (first second third : Ticket) (before : noLater first second = true)
    (after : noLater second third = true) : noLater first third = true := by
  simp only [noLater, decide_eq_true_eq] at before after ⊢
  exact before.trans after

theorem noLater_total (first second : Ticket) :
    (noLater first second || noLater second first) = true := by
  simpa [noLater] using le_total first.key second.key

def enqueue (ticket : Ticket) (tickets : List Ticket) : List Ticket :=
  tickets.orderedInsert (fun first second => first.due < second.due) ticket

theorem enqueue_perm (ticket : Ticket) (tickets : List Ticket) :
    (enqueue ticket tickets).Perm (ticket :: tickets) :=
  List.perm_orderedInsert _ _ _

theorem map_enqueue (ticket : Ticket) (tickets : List Ticket) :
    (enqueue ticket tickets).map entry = Timeline.enqueue ticket.entry (tickets.map entry) := by
  induction tickets with
  | nil => rfl
  | cons first rest ih =>
    by_cases sooner : ticket.due < first.due
    · simp [enqueue, Timeline.enqueue, entry, sooner]
    · simpa [enqueue, Timeline.enqueue, entry, sooner] using ih

-- A ticket whose number is the greatest goes behind all those that are due with it.
theorem enqueue_ordered {ticket : Ticket} {tickets : List Ticket}
    (ordered : tickets.Pairwise Ahead) (newest : ∀ other ∈ tickets, other.number < ticket.number) :
    (enqueue ticket tickets).Pairwise Ahead := by
  induction tickets with
  | nil => simp [enqueue]
  | cons first rest ih =>
    obtain ⟨first_ahead, rest_ordered⟩ := List.pairwise_cons.1 ordered
    by_cases sooner : ticket.due < first.due
    · have ahead : ticket.Ahead first := .inl sooner
      simp only [enqueue, List.orderedInsert_cons, sooner, if_true]
      refine List.pairwise_cons.2 ⟨?_, ordered⟩
      intro other member
      rcases List.mem_cons.1 member with rfl | behind
      · exact ahead
      · exact ahead.trans (first_ahead other behind)
    · simp only [enqueue, List.orderedInsert_cons, sooner, if_false]
      refine List.pairwise_cons.2 ⟨?_, ih rest_ordered fun other member =>
        newest other (List.mem_cons_of_mem _ member)⟩
      intro other member
      rcases List.mem_cons.1 ((enqueue_perm ticket rest).mem_iff.1 member) with rfl | behind
      · rcases UInt64.lt_or_eq_of_le (UInt64.not_lt.1 sooner) with before | level
        · exact .inl before
        · exact .inr ⟨level, newest first (by simp)⟩
      · exact first_ahead other behind

theorem key_injective : Function.Injective key := by
  rintro ⟨due, number, task⟩ ⟨due', number', task'⟩ same
  obtain ⟨same_due, same_number, same_task⟩ :
      due = due' ∧ number = number' ∧ task.key = task'.key := by
    simpa [key, UInt64.toNat_inj] using same
  rw [same_due, same_number, Task.key_injective same_task]

theorem eq_of_perm {left right : List Ticket} (same : left.Perm right)
    (left_ordered : left.Pairwise fun first second => first.key ≤ second.key)
    (right_ordered : right.Pairwise Ahead) : left = right := by
  apply List.Perm.eq_of_pairwise _ left_ordered
    (right_ordered.imp fun ahead => ahead.key_lt.le) same
  intro first second _ _ before after
  exact key_injective (le_antisymm before after)

end Ticket

structure HeapQueue (heap : Heap Ticket.key) where
  shelf : heap.Shelf
  next : UInt64

namespace HeapQueue

variable {heap : Heap Ticket.key}

def empty : HeapQueue heap :=
  ⟨heap.empty, 0⟩

def schedule (queue : HeapQueue heap) (due : UInt64) (task : Task) : HeapQueue heap :=
  ⟨heap.push ⟨due, queue.next, task⟩ queue.shelf, queue.next + 1⟩

def scheduleAll (queue : HeapQueue heap) (entries : List PendingTask) : HeapQueue heap :=
  entries.foldl (fun queue entry => queue.schedule entry.due entry.task) queue

def ofList (entries : List PendingTask) : HeapQueue heap :=
  empty.scheduleAll entries

def tickets (queue : HeapQueue heap) : List Ticket :=
  (heap.entries queue.shelf).mergeSort Ticket.noLater

def pending (queue : HeapQueue heap) : List PendingTask :=
  queue.tickets.map Ticket.entry

def nextDue? (queue : HeapQueue heap) : Option UInt64 :=
  (heap.peek queue.shelf).map Ticket.due

def popDue (queue : HeapQueue heap) (now : UInt64) : Option Task × HeapQueue heap :=
  match queue.nextDue? with
  | none => (none, queue)
  | some due =>
    if now < due then (none, queue)
    else
      match heap.pop queue.shelf with
      | none => (none, queue)
      | some (ticket, shelf) => (some ticket.task, { queue with shelf })

def size (queue : HeapQueue heap) : Nat :=
  (heap.entries queue.shelf).length

def rebuild (queue : HeapQueue heap) : HeapQueue heap :=
  ofList queue.pending

/-- The tickets of a queue, in the order of their keys, and the timeline that they stand for. -/
structure Stands (queue : HeapQueue heap) (tickets : List Ticket) (timeline : Timeline) : Prop where
  held : (heap.entries queue.shelf).Perm tickets
  ordered : tickets.Pairwise Ticket.Ahead
  entries : tickets.map Ticket.entry = timeline.pending
  numbered : ∀ ticket ∈ tickets, ticket.number < queue.next
  counted : timeline.size ≤ queue.next.toNat

theorem stands_empty : (empty : HeapQueue heap).Stands [] .empty := by
  constructor
  · simp [empty, heap.entries_empty]
  · exact .nil
  · rfl
  · simp
  · simp [Timeline.size, Timeline.empty]

variable {queue : HeapQueue heap} {tickets : List Ticket} {timeline : Timeline}

theorem next_toNat (room : queue.next.toNat + 1 < UInt64.size) :
    (queue.next + 1).toNat = queue.next.toNat + 1 := by
  rw [UInt64.toNat_add, Nat.mod_eq_of_lt]
  · rfl
  · exact room

theorem Stands.schedule (stands : queue.Stands tickets timeline)
    (room : queue.next.toNat + 1 < UInt64.size) (due : UInt64) (task : Task) :
    (queue.schedule due task).Stands (Ticket.enqueue ⟨due, queue.next, task⟩ tickets)
      (timeline.schedule due task) := by
  have placed := Ticket.enqueue_perm ⟨due, queue.next, task⟩ tickets
  constructor
  · exact (heap.entries_push _ _).trans ((stands.held.cons _).trans placed.symm)
  · exact Ticket.enqueue_ordered stands.ordered stands.numbered
  · rw [Ticket.map_enqueue, stands.entries]
    rfl
  · intro ticket member
    have grown := next_toNat room
    rw [HeapQueue.schedule, UInt64.lt_iff_toNat_lt, grown]
    rcases List.mem_cons.1 (placed.mem_iff.1 member) with rfl | old
    · exact Nat.lt_succ_self _
    · exact Nat.lt_succ_of_lt (UInt64.lt_iff_toNat_lt.1 (stands.numbered ticket old))
  · have longer := (Timeline.enqueue_perm ⟨due, task⟩ timeline.pending).length_eq
    have counted := stands.counted
    simp only [HeapQueue.schedule, next_toNat room, Timeline.size, Timeline.schedule, longer,
      List.length_cons] at counted ⊢
    omega

theorem Stands.scheduleAll (stands : queue.Stands tickets timeline) (entries : List PendingTask)
    (room : queue.next.toNat + entries.length < UInt64.size) :
    (∃ numbered, (queue.scheduleAll entries).Stands numbered (timeline.scheduleAll entries)) ∧
      (queue.scheduleAll entries).next.toNat = queue.next.toNat + entries.length := by
  induction entries generalizing queue tickets timeline with
  | nil => exact ⟨⟨tickets, stands⟩, rfl⟩
  | cons entry rest ih =>
    rw [List.length_cons] at room
    have grown : (queue.schedule entry.due entry.task).next.toNat = queue.next.toNat + 1 :=
      next_toNat (by omega)
    obtain ⟨numbered, next⟩ := ih (stands.schedule (by omega) entry.due entry.task) (by omega)
    refine ⟨numbered, next.trans ?_⟩
    rw [List.length_cons]
    omega

theorem ofList_stands (entries : List PendingTask) (room : entries.length < UInt64.size) :
    (∃ numbered, (ofList entries : HeapQueue heap).Stands numbered (.ofList entries)) ∧
      (ofList entries : HeapQueue heap).next.toNat = entries.length := by
  have none_used : (empty : HeapQueue heap).next.toNat = 0 := rfl
  have vacant : (empty : HeapQueue heap).Stands [] .empty := stands_empty
  obtain ⟨numbered, next⟩ := vacant.scheduleAll entries (by simpa [none_used] using room)
  exact ⟨numbered, next.trans (by rw [none_used, Nat.zero_add])⟩

theorem Stands.tickets_eq (stands : queue.Stands tickets timeline) : queue.tickets = tickets := by
  have sorted := List.pairwise_mergeSort Ticket.noLater_trans Ticket.noLater_total
    (heap.entries queue.shelf)
  apply Ticket.eq_of_perm ((List.mergeSort_perm _ _).trans stands.held) _ stands.ordered
  exact sorted.imp fun before => of_decide_eq_true before

theorem Stands.pending_eq (stands : queue.Stands tickets timeline) :
    queue.pending = timeline.pending := by
  rw [pending, stands.tickets_eq, stands.entries]

theorem Stands.size_eq (stands : queue.Stands tickets timeline) : queue.size = timeline.size := by
  rw [size, stands.held.length_eq, Timeline.size, ← stands.entries, List.length_map]

-- No other ticket has as small a key as the first one.
theorem Stands.least_eq {first least : Ticket} {rest : List Ticket}
    (stands : queue.Stands (first :: rest) timeline) (member : least ∈ heap.entries queue.shelf)
    (below : ∀ other ∈ heap.entries queue.shelf, least.key ≤ other.key) : least = first := by
  rcases List.mem_cons.1 (stands.held.mem_iff.1 member) with same | behind
  · exact same
  · have ahead := (List.pairwise_cons.1 stands.ordered).1 least behind
    have first_held : first ∈ heap.entries queue.shelf := stands.held.mem_iff.2 (by simp)
    exact absurd (below first first_held) (not_le_of_gt ahead.key_lt)

theorem Stands.nextDue_eq (stands : queue.Stands tickets timeline) :
    queue.nextDue? = timeline.nextDue? := by
  rw [nextDue?, Timeline.nextDue?, ← stands.entries]
  cases peeked : heap.peek queue.shelf with
  | none =>
    have vacant := stands.held.symm
    rw [heap.peek_none _ peeked] at vacant
    rw [vacant.eq_nil]
    rfl
  | some least =>
    obtain ⟨member, below⟩ := heap.peek_some _ _ peeked
    cases tickets with
    | nil =>
      rw [stands.held.eq_nil] at member
      simp at member
    | cons first rest =>
      rw [stands.least_eq member below]
      rfl

theorem Stands.popDue (stands : queue.Stands tickets timeline) (now : UInt64) :
    match timeline.popDue now with
    | none => queue.popDue now = (none, queue)
    | some (task, rest) =>
      ∃ next numbered, queue.popDue now = (some task, next) ∧ next.Stands numbered rest ∧
        next.next = queue.next := by
  have next_due := stands.nextDue_eq
  cases tickets with
  | nil =>
    have vacant : timeline.pending = [] := by simpa using stands.entries.symm
    simp [HeapQueue.popDue, Timeline.popDue, next_due, Timeline.nextDue?, vacant]
  | cons first rest =>
    have head : timeline.pending = first.entry :: rest.map Ticket.entry := by
      simpa using stands.entries.symm
    have next_first : queue.nextDue? = some first.due := by
      simp [next_due, Timeline.nextDue?, head, Ticket.entry]
    simp only [HeapQueue.popDue, Timeline.popDue, next_first, head, List.head?_cons, Ticket.entry]
    by_cases early : now < first.due
    · simp [early, UInt64.not_le.2 early]
    · simp only [early, if_false, UInt64.not_lt.1 early, if_true]
      cases popped : heap.pop queue.shelf with
      | none =>
        have vacant := stands.held
        rw [heap.pop_none _ popped] at vacant
        exact absurd vacant.symm.eq_nil (by simp)
      | some least =>
        obtain ⟨least, shelf⟩ := least
        obtain ⟨taken, below⟩ := heap.pop_some _ _ _ popped
        have least_first := stands.least_eq (taken.mem_iff.2 (by simp)) below
        refine ⟨{ queue with shelf }, rest, by rw [least_first], ?_, rfl⟩
        constructor
        · have others := taken.symm.trans stands.held
          rw [least_first] at others
          exact others.cons_inv
        · exact (List.pairwise_cons.1 stands.ordered).2
        · simp [Timeline.rest, head]
        · exact fun ticket member => stands.numbered ticket (List.mem_cons_of_mem _ member)
        · have counted := stands.counted
          simp only [Timeline.size, Timeline.rest, head, List.length_cons, List.tail_cons]
            at counted ⊢
          omega

theorem Stands.rebuild (stands : queue.Stands tickets timeline) :
    (∃ numbered, queue.rebuild.Stands numbered timeline) ∧
      queue.rebuild.next.toNat ≤ queue.next.toNat := by
  have counted := stands.counted
  have room : timeline.pending.length < UInt64.size := counted.trans_lt queue.next.toNat_lt
  rw [HeapQueue.rebuild, stands.pending_eq]
  obtain ⟨numbered, next⟩ := ofList_stands timeline.pending room
  rw [Timeline.ofList_pending] at numbered
  exact ⟨numbered, next.trans_le counted⟩

end HeapQueue

end Spellcraft
