import Spellcraft.Reality.Laws

set_option autoImplicit false

namespace Spellcraft

structure Laws.Consistent (laws : Laws) : Prop where
  timeRange : laws.normalTimeMin ≤ laws.normalTimeMax
  entropyRange : 0.0 ≤ laws.privilegedEntropyCeiling

namespace Fault

variable {State Item Result Failure : Type}

@[simp] theorem ok_bind (state : State) (next : State → Except Failure Result) :
    (Except.ok state >>= next) = next state := rfl

@[simp] theorem pure_eq_ok (state : State) : (pure state : Except Fault State) = .ok state := rfl

theorem bind_eq_ok {step : Except Failure State} {next : State → Except Failure Result}
    {result : Result} :
    (step >>= next) = .ok result ↔ ∃ state, step = .ok state ∧ next state = .ok result := by
  cases step with
  | error fault => simp [bind, Except.bind]
  | ok state => simp

theorem map_map {Final : Type} {first : State → Result} {second : Result → Final}
    (run : Except Fault State) : (run.map first).map second = run.map fun state =>
      second (first state) := by
  cases run <;> rfl

-- Runs that look alike and go on alike end alike.
theorem map_bind_congr {Final Look : Type} {view : State → Look} {shown : Result → Final}
    {left right : Except Fault State} {next other : State → Except Fault Result}
    (same : left.map view = right.map view)
    (follows : ∀ state moved, view state = view moved →
      (next state).map shown = (other moved).map shown) :
    (left >>= next).map shown = (right >>= other).map shown := by
  cases left with
  | error fault =>
    cases right with
    | error other =>
      obtain rfl : fault = other := Except.error.inj same
      rfl
    | ok moved => cases same
  | ok state =>
    cases right with
    | error other => cases same
    | ok moved => exact follows state moved (Except.ok.inj same)

section Paired

variable {Final Look Told : Type} {view : State → Look} {left right : Except Fault (Result × State)}

theorem map_bind_pair {shown : Item → Final} {next other : Result × State → Except Fault Item}
    (same : left.map (Prod.map id view) = right.map (Prod.map id view))
    (follows : ∀ result state moved, view state = view moved →
      (next (result, state)).map shown = (other (result, moved)).map shown) :
    (left >>= next).map shown = (right >>= other).map shown := by
  apply map_bind_congr same
  rintro ⟨result, state⟩ ⟨told, moved⟩ alike
  obtain ⟨answered, looks⟩ := Prod.mk.inj alike
  obtain rfl : result = told := answered
  exact follows result state moved looks

theorem map_answer (tell : Result → Told) (shown : Told → Final)
    (same : left.map (Prod.map id view) = right.map (Prod.map id view)) :
    (left >>= fun pair => .ok (tell pair.1, pair.2)).map (Prod.map shown view) =
      (right >>= fun pair => .ok (tell pair.1, pair.2)).map (Prod.map shown view) := by
  apply map_bind_pair same
  intro result state moved looks
  exact congrArg (fun look => Except.ok (shown (tell result), look)) looks

end Paired

variable {step : State → Item → Except Fault State} {holds : State → Prop}

theorem foldlM_keeps {items : List Item}
    (kept : ∀ item ∈ items, ∀ state next, holds state → step state item = .ok next → holds next)
    {start last : State} (run : items.foldlM step start = .ok last) (initial : holds start) :
    holds last := by
  induction items generalizing start with
  | nil =>
    obtain rfl : start = last := by simpa using run
    exact initial
  | cons item rest ih =>
    rw [List.foldlM_cons, bind_eq_ok] at run
    obtain ⟨next, stepped, continued⟩ := run
    have held := kept item (by simp) start next initial stepped
    exact ih (fun other member => kept other (List.mem_cons_of_mem _ member)) continued held

theorem foldlM_ok {items : List Item}
    (total : ∀ item ∈ items, ∀ state, holds state → ∃ next, step state item = .ok next ∧ holds next)
    {start : State} (initial : holds start) :
    ∃ last, items.foldlM step start = .ok last ∧ holds last := by
  induction items generalizing start with
  | nil => exact ⟨start, rfl, initial⟩
  | cons item rest ih =>
    obtain ⟨next, stepped, held⟩ := total item (by simp) start initial
    obtain ⟨last, continued, end_held⟩ :=
      ih (fun other member => total other (List.mem_cons_of_mem _ member)) held
    exact ⟨last, by simp [List.foldlM_cons, stepped, continued], end_held⟩

-- Steps that can be followed from related states make runs that can be followed.
theorem foldlM_lift {Other : Type} {follow : Other → Item → Except Fault Other}
    {related : State → Other → Prop}
    (lift : ∀ item left right next, related left right → step left item = .ok next →
      ∃ other, follow right item = .ok other ∧ related next other)
    {items : List Item} {left last : State} {right : Other} (initial : related left right)
    (run : items.foldlM step left = .ok last) :
    ∃ other, items.foldlM follow right = .ok other ∧ related last other := by
  induction items generalizing left right with
  | nil =>
    obtain rfl : left = last := by simpa using run
    exact ⟨right, rfl, initial⟩
  | cons item rest ih =>
    rw [List.foldlM_cons, bind_eq_ok] at run
    obtain ⟨next, stepped, continued⟩ := run
    obtain ⟨next', stepped', after⟩ := lift item left right next initial stepped
    obtain ⟨other, continued', related'⟩ := ih after continued
    exact ⟨other, by simp [List.foldlM_cons, stepped', continued'], related'⟩

end Fault

end Spellcraft
