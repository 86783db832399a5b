import Spellcraft.Proofs.Timeline.Agenda
import Spellcraft.Proofs.Timeline.HeapQueue

set_option autoImplicit false

namespace Spellcraft

inductive Queueing.Request where
  | schedule (entry : PendingTask)
  | popDue (now : UInt64)
  | pending
  | nextDue
  | size
  | rebuild
deriving DecidableEq

inductive Queueing.Reply where
  | popped (task : Option Task)
  | listed (entries : List PendingTask)
  | due (next : Option UInt64)
  | counted (count : Nat)
  | done
deriving DecidableEq

namespace Queueing.Request

def scheduled? : Request → Option PendingTask
  | schedule entry => some entry
  | popDue _ | pending | nextDue | size | rebuild => none

def schedules (request : Request) : Nat :=
  request.scheduled?.toList.length

theorem schedules_eq_zero {request : Request} (none_scheduled : request.scheduled? = none) :
    request.schedules = 0 := by
  rw [schedules, none_scheduled]
  rfl

def room (requests : List Request) : Nat :=
  (requests.filterMap scheduled?).length

theorem room_cons (request : Request) (later : List Request) :
    room (request :: later) = request.schedules + room later := by
  rw [room, List.filterMap_cons, schedules]
  cases request.scheduled? with
  | none => simp [room]
  | some entry => simp [room, Nat.add_comm]

end Queueing.Request

def Queueing.Reply.task? : Queueing.Reply → Option Task
  | popped task => task
  | listed _ | due _ | counted _ | done => none

structure Queueing (State : Type) where
  ofList : List PendingTask → State
  schedule : State → PendingTask → State
  popDue : State → UInt64 → Option Task × State
  pending : State → List PendingTask
  nextDue? : State → Option UInt64
  size : State → Nat
  rebuild : State → State

namespace Queueing

def heapQueue (heap : Heap Ticket.key) : Queueing (HeapQueue heap) where
  ofList := HeapQueue.ofList
  schedule queue entry := queue.schedule entry.due entry.task
  popDue := HeapQueue.popDue
  pending := HeapQueue.pending
  nextDue? := HeapQueue.nextDue?
  size := HeapQueue.size
  rebuild := HeapQueue.rebuild

def timeline : Queueing Timeline where
  ofList := Timeline.ofList
  schedule timeline entry := timeline.schedule entry.due entry.task
  popDue timeline now :=
    match timeline.popDue now with
    | none => (none, timeline)
    | some (task, rest) => (some task, rest)
  pending := Timeline.pending
  nextDue? := Timeline.nextDue?
  size := Timeline.size
  rebuild timeline := .ofList timeline.pending

def agenda : Queueing (List PendingTask) where
  ofList := Agenda.sort
  schedule entries entry := Agenda.schedule entry entries
  popDue entries now := Agenda.popDue now entries
  pending := id
  nextDue? entries := entries.head?.map PendingTask.due
  size := List.length
  rebuild := id

variable {State Other : Type}

def ask (queueing : Queueing State) (state : State) : Request → Reply × State
  | .schedule entry => (.done, queueing.schedule state entry)
  | .popDue now => let (task, next) := queueing.popDue state now; (.popped task, next)
  | .pending => (.listed (queueing.pending state), state)
  | .nextDue => (.due (queueing.nextDue? state), state)
  | .size => (.counted (queueing.size state), state)
  | .rebuild => (.done, queueing.rebuild state)

def converse (queueing : Queueing State) : List Request → State → List Reply × State
  | [], state => ([], state)
  | request :: later, state =>
    let (reply, next) := queueing.ask state request
    let (replies, last) := queueing.converse later next
    (reply :: replies, last)

def Simulates (left : Queueing State) (right : Queueing Other)
    (related : Nat → State → Other → Prop) : Prop :=
  ∀ room state other request, related (request.schedules + room) state other →
    (left.ask state request).1 = (right.ask other request).1 ∧
      related room (left.ask state request).2 (right.ask other request).2

theorem Simulates.converse {left : Queueing State} {right : Queueing Other}
    {related : Nat → State → Other → Prop} (simulates : left.Simulates right related)
    {requests : List Request} {state : State} {other : Other}
    (start : related (Request.room requests) state other) :
    (left.converse requests state).1 = (right.converse requests other).1 ∧
      related 0 (left.converse requests state).2 (right.converse requests other).2 := by
  induction requests generalizing state other with
  | nil => exact ⟨rfl, start⟩
  | cons request later ih =>
    rw [Request.room_cons] at start
    obtain ⟨reply, next⟩ := simulates _ state other request start
    obtain ⟨replies, last⟩ := ih next
    exact ⟨congrArg₂ List.cons reply replies, last⟩

theorem agenda_simulates :
    timeline.Simulates agenda fun _ timeline entries => timeline.pending = entries := by
  rintro room timeline _ request rfl
  cases request with
  | schedule entry => exact ⟨rfl, (Agenda.schedule_eq_enqueue timeline.ordered entry).symm⟩
  | popDue now =>
    rcases timeline with ⟨_ | ⟨first, rest⟩, ordered⟩
    · exact ⟨rfl, rfl⟩
    · by_cases late : first.due ≤ now
      · simp [ask, Queueing.timeline, agenda, Timeline.popDue, Agenda.popDue, Timeline.rest, late]
      · simp [ask, Queueing.timeline, agenda, Timeline.popDue, Agenda.popDue, late]
  | rebuild => exact ⟨rfl, congrArg Timeline.pending (Timeline.ofList_pending timeline)⟩
  | pending => exact ⟨rfl, rfl⟩
  | nextDue => exact ⟨rfl, rfl⟩
  | size => exact ⟨rfl, rfl⟩

variable {heap : Heap Ticket.key}

theorem heapQueue_simulates :
    (heapQueue heap).Simulates timeline fun room queue timeline =>
      (∃ tickets, queue.Stands tickets timeline) ∧ queue.next.toNat + room < UInt64.size := by
  rintro room queue timeline request ⟨⟨tickets, stands⟩, few⟩
  cases request with
  | schedule entry =>
    have enough : queue.next.toNat + (1 + room) < UInt64.size := few
    have grown : (queue.next + 1).toNat = queue.next.toNat + 1 := HeapQueue.next_toNat (by omega)
    have left_over : (queue.next + 1).toNat + room < UInt64.size := by omega
    exact ⟨rfl, ⟨_, stands.schedule (by omega) entry.due entry.task⟩, left_over⟩
  | popDue now =>
    rw [Request.schedules_eq_zero rfl, Nat.zero_add] at few
    have popped := stands.popDue now
    cases taken : timeline.popDue now with
    | none =>
      rw [taken] at popped
      simp only [ask, heapQueue, Queueing.timeline, popped, taken]
      exact ⟨trivial, ⟨tickets, stands⟩, few⟩
    | some first =>
      rw [taken] at popped
      obtain ⟨next, numbered, same, others, counter⟩ := popped
      simp only [ask, heapQueue, Queueing.timeline, same, taken]
      exact ⟨trivial, ⟨numbered, others⟩, by rwa [counter]⟩
  | pending =>
    rw [Request.schedules_eq_zero rfl, Nat.zero_add] at few
    exact ⟨congrArg Reply.listed stands.pending_eq, ⟨tickets, stands⟩, few⟩
  | nextDue =>
    rw [Request.schedules_eq_zero rfl, Nat.zero_add] at few
    exact ⟨congrArg Reply.due stands.nextDue_eq, ⟨tickets, stands⟩, few⟩
  | size =>
    rw [Request.schedules_eq_zero rfl, Nat.zero_add] at few
    exact ⟨congrArg Reply.counted stands.size_eq, ⟨tickets, stands⟩, few⟩
  | rebuild =>
    rw [Request.schedules_eq_zero rfl, Nat.zero_add] at few
    obtain ⟨⟨numbered, same⟩, counter⟩ := stands.rebuild
    have left_over : queue.rebuild.next.toNat + room < UInt64.size := by omega
    refine ⟨rfl, ⟨numbered, ?_⟩, left_over⟩
    simpa [ask, heapQueue, Queueing.timeline] using same

def PopsFirst (queueing : Queueing State) (state : State) (now : UInt64) : Prop :=
  match queueing.popDue state now with
  | (none, next) => next = state ∧ ∀ entry ∈ queueing.pending state, now < entry.due
  | (some task, next) =>
    ∃ entry, entry.task = task ∧ entry.due ≤ now ∧
      queueing.pending state = entry :: queueing.pending next ∧
      ∀ other ∈ queueing.pending next, entry.due ≤ other.due

theorem heapQueue_popsFirst {queue : HeapQueue heap} {tickets : List Ticket} {timeline : Timeline}
    (stands : queue.Stands tickets timeline) (now : UInt64) :
    (heapQueue heap).PopsFirst queue now := by
  have popped := stands.popDue now
  cases taken : timeline.popDue now with
  | none =>
    rw [taken] at popped
    simp only [PopsFirst, heapQueue, popped]
    refine ⟨trivial, fun entry member => ?_⟩
    rw [stands.pending_eq, ← (Timeline.popDue_eq_none taken).2] at member
    exact Timeline.due_of_mem_after member
  | some first =>
    rw [taken] at popped
    obtain ⟨next, numbered, same, others, -⟩ := popped
    obtain ⟨entry, task_eq, late, head⟩ := Timeline.popDue_pending taken
    have ordered := timeline.ordered
    rw [head] at ordered
    simp only [PopsFirst, heapQueue, same]
    refine ⟨entry, task_eq, late, ?_, ?_⟩
    · rw [stands.pending_eq, others.pending_eq, head]
    · rw [others.pending_eq]
      exact (List.pairwise_cons.1 ordered).1

theorem agenda_accounts (requests : List Request) (entries : List PendingTask) :
    ∃ taken : List PendingTask,
      (agenda.converse requests entries).1.filterMap Reply.task? = taken.map PendingTask.task ∧
      ∀ due, Agenda.dueAt due (taken ++ (agenda.converse requests entries).2) =
        Agenda.dueAt due (entries ++ requests.filterMap Request.scheduled?) := by
  induction requests generalizing entries with
  | nil => exact ⟨[], rfl, fun due => by simp [converse]⟩
  | cons request later ih =>
    cases request with
    | schedule entry =>
      obtain ⟨taken, replies, accounts⟩ := ih (Agenda.schedule entry entries)
      refine ⟨taken, replies, fun due => ?_⟩
      have placed : Agenda.dueAt due (Agenda.schedule entry entries) =
          Agenda.dueAt due (entries ++ [entry]) :=
        Agenda.dueAt_sort due (entries ++ [entry])
      refine (accounts due).trans ?_
      rw [Agenda.dueAt_append, placed, ← Agenda.dueAt_append, List.append_assoc]
      rfl
    | popDue now =>
      cases entries with
      | nil => exact ih []
      | cons first rest =>
        by_cases late : first.due ≤ now
        · have asked : agenda.ask (first :: rest) (.popDue now) = (.popped first.task, rest) := by
            simp [ask, agenda, Agenda.popDue, late]
          obtain ⟨taken, replies, accounts⟩ := ih rest
          refine ⟨first :: taken, ?_, fun due => ?_⟩
          · rw [converse, asked]
            exact congrArg (first.task :: ·) replies
          · have others := accounts due
            simp only [converse, asked, Request.scheduled?, List.filterMap_cons, List.cons_append,
              Agenda.dueAt_cons, others]
        · have asked : agenda.ask (first :: rest) (.popDue now) =
              (.popped none, first :: rest) := by
            simp [ask, agenda, Agenda.popDue, late]
          rw [converse, asked]
          exact ih (first :: rest)
    | pending => exact ih entries
    | nextDue => exact ih entries
    | size => exact ih entries
    | rebuild => exact ih entries

theorem heapQueue_refines_agenda (heap : Heap Ticket.key) (start : List PendingTask)
    (requests : List Request)
    (few : start.length + (requests.filterMap Request.scheduled?).length < UInt64.size) :
    let queued := (heapQueue heap).converse requests (.ofList start)
    let timed := timeline.converse requests (.ofList start)
    let sorted := agenda.converse requests (Agenda.sort start)
    queued.1 = sorted.1 ∧ timed.1 = sorted.1 ∧
      queued.2.pending = sorted.2 ∧ timed.2.pending = sorted.2 ∧
      (∀ now, (heapQueue heap).PopsFirst queued.2 now) ∧
      ∃ taken : List PendingTask,
        queued.1.filterMap Reply.task? = taken.map PendingTask.task ∧
        (taken ++ queued.2.pending).Perm (start ++ requests.filterMap Request.scheduled?) ∧
        ∀ due, Agenda.dueAt due (taken ++ queued.2.pending) =
          Agenda.dueAt due (start ++ requests.filterMap Request.scheduled?) := by
  intro queued timed sorted
  have numbered : (∃ tickets, (HeapQueue.ofList start : HeapQueue heap).Stands tickets
        (.ofList start)) ∧
      (HeapQueue.ofList start : HeapQueue heap).next.toNat + Request.room requests <
        UInt64.size := by
    obtain ⟨stands, next⟩ := HeapQueue.ofList_stands start (by omega)
    exact ⟨stands, by rwa [next]⟩
  obtain ⟨queue_replies, ⟨tickets, stands⟩, -⟩ := heapQueue_simulates.converse numbered
  have alike : timed.1 = sorted.1 ∧ timed.2.pending = sorted.2 :=
    agenda_simulates.converse (Agenda.sort_eq_ofList start).symm
  obtain ⟨timed_replies, timed_pending⟩ := alike
  have queue_pending : queued.2.pending = sorted.2 := stands.pending_eq.trans timed_pending
  have same_replies : queued.1 = sorted.1 := queue_replies.trans timed_replies
  obtain ⟨taken, replies, accounts⟩ := agenda_accounts requests (Agenda.sort start)
  refine ⟨same_replies, timed_replies, queue_pending, timed_pending,
    heapQueue_popsFirst stands, taken, ?_⟩
  have levels (due : UInt64) : Agenda.dueAt due (taken ++ queued.2.pending) =
      Agenda.dueAt due (start ++ requests.filterMap Request.scheduled?) := by
    rw [queue_pending, accounts due, Agenda.dueAt_append, Agenda.dueAt_sort, Agenda.dueAt_append]
  exact ⟨same_replies ▸ replies, Agenda.perm_of_dueAt levels, levels⟩

-- Three tasks that are due together, two of them before the queue is rebuilt.
theorem heapQueue_refines_agenda_ties :
    let start : List PendingTask :=
      [⟨50, .expireEffect ⟨7⟩⟩, ⟨20, .normalizeTime⟩, ⟨50, .halveProbability⟩]
    let requests : List Request :=
      [.popDue 10, .popDue 60, .rebuild, .schedule ⟨50, .normalizeTime⟩, .popDue 49, .popDue 50,
        .popDue 50, .pending]
    start.length + (requests.filterMap Request.scheduled?).length < UInt64.size ∧
      ((heapQueue (.ofLists Ticket.key)).converse requests (.ofList start)).1 =
        [.popped none, .popped (some .normalizeTime), .done, .done, .popped none,
          .popped (some (.expireEffect ⟨7⟩)), .popped (some .halveProbability),
          .listed [⟨50, .normalizeTime⟩]] := by
  intro start requests
  obtain ⟨queued, timed, -⟩ :=
    heapQueue_refines_agenda (.ofLists Ticket.key) start requests (by decide)
  exact ⟨by decide, queued.trans (timed.symm.trans (by decide))⟩

end Queueing

end Spellcraft
