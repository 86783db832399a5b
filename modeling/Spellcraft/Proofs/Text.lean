import Mathlib.Data.List.TakeWhile
import Spellcraft.Text.Line

set_option autoImplicit false

namespace Spellcraft.Text

theorem after?_eq_some {word text rest : List Char} :
    after? word text = some rest ↔ text = word ++ rest := by
  induction word generalizing text with
  | nil => simp [after?]
  | cons c word ih =>
    cases text with
    | nil => simp [after?]
    | cons d text =>
      by_cases same : c = d
      · simp [after?, same, ih]
      · simp [after?, same, Ne.symm same]

theorem before?_eq_some {word text rest : List Char} :
    before? word text = some rest ↔ text = rest ++ word := by
  have reversed (left : List Char) :
      text.reverse = word.reverse ++ left ↔ text = left.reverse ++ word := by
    rw [← List.reverse_inj, List.reverse_reverse]
    simp
  simp only [before?, Option.map_eq_some_iff, after?_eq_some, reversed]
  constructor
  · rintro ⟨left, parts, rfl⟩
    exact parts
  · intro parts
    exact ⟨rest.reverse, by simpa using parts, List.reverse_reverse rest⟩

theorem cut?_eq_some {mark : Char} {text left right : List Char} :
    cut? mark text = some (left, right) ↔ text = left ++ mark :: right ∧ mark ∉ left := by
  induction text generalizing left with
  | nil => simp [cut?]
  | cons c rest ih =>
    by_cases same : c = mark
    · cases left with
      | nil => simp [cut?, same]
      | cons d left =>
        simp only [cut?, same, if_true, List.cons_append, List.cons.injEq, List.mem_cons, not_or]
        constructor
        · rintro ⟨⟩
        · rintro ⟨⟨rfl, -⟩, apart, -⟩
          exact absurd rfl apart
    · simp only [cut?, same, if_false, Option.map_eq_some_iff]
      constructor
      · rintro ⟨⟨before, after⟩, cut, ⟨⟩⟩
        obtain ⟨rfl, absent⟩ := ih.1 cut
        simp [absent, Ne.symm same]
      · rintro ⟨parts, absent⟩
        cases left with
        | nil => exact absurd (List.cons.inj parts).1 same
        | cons d left =>
          obtain ⟨rfl, rfl⟩ := List.cons.inj parts
          exact ⟨(left, right), ih.2 ⟨rfl, List.not_mem_of_not_mem_cons absent⟩, rfl⟩

theorem occurs_iff {word text : List Char} : occurs word text = true ↔ word <:+: text := by
  induction text with
  | nil => simp [occurs]
  | cons c rest ih => simp [occurs, ih, List.infix_cons_iff]

variable {α : Type} {kind : α → Bool}

-- A run is the longest one: nothing of its kind follows it.
theorem run_eq_iff {items run rest : List α} :
    (items.takeWhile kind = run ∧ items.dropWhile kind = rest) ↔
      items = run ++ rest ∧ (∀ item ∈ run, kind item = true) ∧
        ∀ item ∈ rest.head?, kind item = false := by
  constructor
  · rintro ⟨rfl, rfl⟩
    refine ⟨List.takeWhile_append_dropWhile.symm, fun item => List.mem_takeWhile_imp, ?_⟩
    intro item first
    have stops := List.head?_dropWhile_not kind items
    rwa [Option.mem_def.1 first] at stops
  · rintro ⟨rfl, inside, outside⟩
    rw [List.takeWhile_append_of_pos inside, List.dropWhile_append_of_pos inside]
    cases rest with
    | nil => simp
    | cons first others => simp [outside first (by simp)]

theorem run_append {items others : List α} (ends : ∀ item ∈ others.head?, kind item = false) :
    (items ++ others).takeWhile kind = items.takeWhile kind ∧
      (items ++ others).dropWhile kind = items.dropWhile kind ++ others := by
  obtain ⟨parts, inside, outside⟩ := (@run_eq_iff _ kind items _ _).1 ⟨rfl, rfl⟩
  refine run_eq_iff.2 ⟨?_, inside, ?_⟩
  · rw [← List.append_assoc, ← parts]
  · cases rest : items.dropWhile kind with
    | nil => simpa using ends
    | cons first rest => simpa [rest] using outside

end Spellcraft.Text
