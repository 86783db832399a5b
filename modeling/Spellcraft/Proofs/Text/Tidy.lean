import Mathlib.Data.List.DropRight
import Spellcraft.Proofs.Script.Grammar

set_option autoImplicit false

namespace Spellcraft.Text

section Trim

variable {c : Char} {text : List Char}

theorem trimEnd_concat (blank : isBlank c = true) : trimEnd (text ++ [c]) = trimEnd text :=
  List.rdropWhile_concat_pos isBlank text c blank

theorem trimEnd_eq_nil : trimEnd text = [] ↔ Blank text :=
  List.rdropWhile_eq_nil_iff

theorem trimEnd_cons (shown : ¬ Blank text) : trimEnd (c :: text) = c :: trimEnd text := by
  have ends : text.reverse.dropWhile isBlank ≠ [] := by
    simpa [trimEnd] using mt trimEnd_eq_nil.1 shown
  rw [trimEnd, List.reverse_cons, List.dropWhile_append, if_neg (by simpa using ends)]
  simp [trimEnd]

-- What does not notice a blank character at either end does not notice trimming.
theorem trim_invariant {Value : Type} {f : List Char → Value}
    (front : ∀ c text, isBlank c = true → f (c :: text) = f text)
    (back : ∀ c text, isBlank c = true → f (text ++ [c]) = f text) (text : List Char) :
    f (trim text) = f text := by
  have start : f (trimStart text) = f text := by
    induction text with
    | nil => rfl
    | cons c rest ih =>
      by_cases blank : isBlank c = true
      · rw [trimStart, List.dropWhile_cons_of_pos blank, front c rest blank]
        exact ih
      · rw [trimStart, List.dropWhile_cons_of_neg blank]
  rw [← start, trim]
  induction trimStart text using List.reverseRecOn with
  | nil => rfl
  | append_singleton rest c ih =>
    by_cases blank : isBlank c = true
    · rw [trimEnd_concat blank, back c rest blank]
      exact ih
    · exact congrArg f (List.rdropWhile_concat_neg isBlank rest c blank)

theorem trim_cons (blank : isBlank c = true) : trim (c :: text) = trim text := by
  rw [trim, trim, trimStart, List.dropWhile_cons_of_pos blank, trimStart]

theorem trim_concat (blank : isBlank c = true) : trim (text ++ [c]) = trim text := by
  rw [trim, trim, trimStart, List.dropWhile_append, ← trimStart]
  split
  · next empty =>
    rw [List.isEmpty_iff.1 empty, List.dropWhile_cons_of_pos blank, List.dropWhile_nil]
  · exact trimEnd_concat blank

@[simp] theorem trim_trim (text : List Char) : trim (trim text) = trim text :=
  trim_invariant (fun _ _ => trim_cons) (fun _ _ => trim_concat) text

theorem blank_trim : Blank (trim text) ↔ Blank text := by
  have front (c : Char) (text : List Char) (blank : isBlank c = true) :
      Blank (c :: text) = Blank text := by
    simp [Blank, blank]
  have back (c : Char) (text : List Char) (blank : isBlank c = true) :
      Blank (text ++ [c]) = Blank text := by
    simp [Blank, or_imp, forall_and, blank]
  exact iff_of_eq (trim_invariant front back text)

theorem trim_eq_nil : trim text = [] ↔ Blank text := by
  constructor
  · intro empty
    rw [← blank_trim, empty]
    simp [Blank]
  · intro blank
    induction text with
    | nil => rfl
    | cons c rest ih =>
      obtain ⟨first, others⟩ := List.forall_mem_cons.1 blank
      rw [trim_cons first]
      exact ih others

end Trim

def tidy (lines : List (List Char)) : List (List Char) :=
  (lines.map trim).filter fun line => !line.isEmpty

@[simp] theorem tidy_nil : tidy [] = [] := rfl

@[simp] theorem tidy_append (left right : List (List Char)) :
    tidy (left ++ right) = tidy left ++ tidy right := by
  simp [tidy]

theorem tidy_cons_blank {line : List Char} (blank : Blank line) (lines : List (List Char)) :
    tidy (line :: lines) = tidy lines := by
  simp [tidy, trim_eq_nil.2 blank]

theorem tidy_cons_shown {line : List Char} (shown : ¬ Blank line) (lines : List (List Char)) :
    tidy (line :: lines) = trim line :: tidy lines := by
  simp [tidy, trim_eq_nil, shown]

theorem tidy_cons_congr {left right : List Char} (same : trim left = trim right)
    (lines : List (List Char)) : tidy (left :: lines) = tidy (right :: lines) := by
  simp [tidy, same]

theorem tidy_reverse (lines : List (List Char)) : tidy lines.reverse = (tidy lines).reverse := by
  simp [tidy]

theorem shown_of_mem_tidy {lines : List (List Char)} {line : List Char}
    (member : line ∈ tidy lines) : ¬ Blank line := by
  obtain ⟨within, shown⟩ := List.mem_filter.1 member
  obtain ⟨raw, -, rfl⟩ := List.mem_map.1 within
  rw [← trim_eq_nil, trim_trim]
  simpa using shown

theorem tidy_tidy (lines : List (List Char)) : tidy (tidy lines) = tidy lines := by
  induction lines with
  | nil => rfl
  | cons line rest ih =>
    by_cases blank : Blank line
    · rw [tidy_cons_blank blank, ih]
    · rw [tidy_cons_shown blank, tidy_cons_congr (trim_trim line), tidy_cons_shown blank, ih]

-- A text is a line, or a line before a newline and another text.
@[elab_as_elim]
theorem lines_induction {motive : List Char → Prop}
    (single : ∀ line, '\n' ∉ line → motive line)
    (newline : ∀ line rest, '\n' ∉ line → motive rest → motive (line ++ '\n' :: rest))
    (text : List Char) : motive text := by
  by_cases ends : '\n' ∈ text
  · obtain ⟨line, rest, rfl, inside⟩ := List.eq_append_cons_of_mem ends
    exact newline line rest inside (lines_induction single newline rest)
  · exact single text ends
termination_by text.length

theorem lines_single {line : List Char} (inside : '\n' ∉ line) (shown : line ≠ []) :
    lines line = [line] := by
  induction line with
  | nil => exact absurd rfl shown
  | cons c rest ih =>
    have first := List.ne_of_not_mem_cons inside
    have others := List.not_mem_of_not_mem_cons inside
    have unbroken (left : List Char) (_ : c = '\r') (ends : rest = '\n' :: left) : False := by
      simp [ends] at others
    rw [lines]
    · cases rest with
      | nil => rfl
      | cons d rest => rw [ih others (List.cons_ne_nil d rest)]
    · exact fun same => first same.symm
    · exact unbroken

-- The line may lose a carriage return before the newline.
theorem lines_newline {line : List Char} (inside : '\n' ∉ line) (rest : List Char) :
    ∃ first, lines (line ++ '\n' :: rest) = first :: lines rest ∧
      (line = first ∨ line = first ++ ['\r']) := by
  induction line with
  | nil => exact ⟨[], by rw [List.nil_append, lines], .inl rfl⟩
  | cons c line ih =>
    have start := List.ne_of_not_mem_cons inside
    have others := List.not_mem_of_not_mem_cons inside
    by_cases returned : c = '\r' ∧ line = []
    · obtain ⟨rfl, rfl⟩ := returned
      exact ⟨[], by rw [List.singleton_append, lines], .inr rfl⟩
    · have unbroken (left : List Char) (isReturn : c = '\r')
          (ends : line ++ '\n' :: rest = '\n' :: left) : False := by
        cases line with
        | nil => exact returned ⟨isReturn, rfl⟩
        | cons d line =>
          obtain ⟨rfl, -⟩ := List.cons.inj ends
          simp at others
      obtain ⟨first, divided, kept⟩ := ih others
      refine ⟨c :: first, ?_, kept.imp (congrArg _) (congrArg _)⟩
      rw [List.cons_append, lines, divided]
      · exact fun same => start same.symm
      · exact unbroken

theorem tidy_lines_single {line : List Char} (inside : '\n' ∉ line) :
    tidy (lines line) = tidy [line] := by
  by_cases empty : line = []
  · rw [empty]
    rfl
  · rw [lines_single inside empty]

theorem tidy_lines_newline {line : List Char} (inside : '\n' ∉ line) (rest : List Char) :
    tidy (lines (line ++ '\n' :: rest)) = tidy (line :: lines rest) := by
  obtain ⟨first, divided, rfl | rfl⟩ := lines_newline inside rest
  · rw [divided]
  · have returned : trim (first ++ ['\r']) = trim first := trim_concat (by decide)
    rw [divided, tidy_cons_congr returned]

theorem tidy_lines_eq_nil {text : List Char} : tidy (lines text) = [] ↔ Blank text := by
  have shown {line : List Char} {rest : List (List Char)} :
      tidy (line :: rest) = [] ↔ Blank line ∧ tidy rest = [] := by
    by_cases blank : Blank line
    · simp [tidy_cons_blank blank, blank]
    · simp [tidy_cons_shown blank, blank]
  induction text using lines_induction with
  | single line inside => simp [tidy_lines_single inside, shown]
  | newline line rest inside ih =>
    have newline : isBlank '\n' = true := by decide
    simp only [tidy_lines_newline inside, shown, ih, Blank, List.forall_mem_append,
      List.forall_mem_cons, newline, true_and]

theorem tidy_lines_append (left right : List Char) :
    tidy (lines (left ++ '\n' :: right)) = tidy (lines left) ++ tidy (lines right) := by
  induction left using lines_induction with
  | single line inside =>
    rw [tidy_lines_newline inside, tidy_lines_single inside, ← tidy_append, List.singleton_append]
  | newline line rest inside ih =>
    rw [List.append_assoc, List.cons_append, tidy_lines_newline inside, tidy_lines_newline inside,
      ← List.singleton_append, tidy_append, ih, ← List.append_assoc, ← tidy_append,
      List.singleton_append]

theorem tidy_lines_joinLines (parts : List (List Char)) :
    tidy (lines (joinLines parts)) = parts.flatMap fun part => tidy (lines part) := by
  induction parts with
  | nil => rfl
  | cons part others ih =>
    cases others with
    | nil => simp [joinLines]
    | cons next others =>
      rw [joinLines, List.intercalate_cons_cons, List.append_assoc, ← joinLines,
        List.singleton_append, tidy_lines_append, ih]
      rfl

theorem tidy_lines_cons {c : Char} (blank : isBlank c = true) (text : List Char) :
    tidy (lines (c :: text)) = tidy (lines text) := by
  by_cases ends : c = '\n'
  · rw [ends, lines]
    rfl
  · induction text using lines_induction with
    | single line inside =>
      have within : '\n' ∉ c :: line := List.not_mem_cons_of_ne_of_not_mem (Ne.symm ends) inside
      rw [tidy_lines_single within, tidy_lines_single inside, tidy_cons_congr (trim_cons blank)]
    | newline line rest inside =>
      have within : '\n' ∉ c :: line := List.not_mem_cons_of_ne_of_not_mem (Ne.symm ends) inside
      rw [← List.cons_append, tidy_lines_newline within, tidy_lines_newline inside,
        tidy_cons_congr (trim_cons blank)]

theorem tidy_lines_concat {c : Char} (blank : isBlank c = true) (text : List Char) :
    tidy (lines (text ++ [c])) = tidy (lines text) := by
  by_cases ends : c = '\n'
  · rw [ends, tidy_lines_append, lines, tidy_nil, List.append_nil]
  · induction text using lines_induction with
    | single line inside =>
      have within : '\n' ∉ line ++ [c] := by simp [inside, Ne.symm ends]
      rw [tidy_lines_single within, tidy_lines_single inside, tidy_cons_congr (trim_concat blank)]
    | newline line rest inside ih =>
      rw [List.append_assoc, List.cons_append, tidy_lines_newline inside, tidy_lines_newline inside,
        ← List.singleton_append, tidy_append, ih, ← tidy_append, List.singleton_append]

theorem tidy_lines_trim (text : List Char) : tidy (lines (trim text)) = tidy (lines text) :=
  trim_invariant (f := fun text => tidy (lines text))
    (fun _ text blank => tidy_lines_cons blank text)
    (fun _ text blank => tidy_lines_concat blank text) text

theorem tidy_lines_joinLines_tidy (parts : List (List Char)) :
    tidy (lines (joinLines (tidy parts))) = tidy (lines (joinLines parts)) := by
  rw [tidy_lines_joinLines, tidy_lines_joinLines]
  induction parts with
  | nil => rfl
  | cons part others ih =>
    by_cases blank : Blank part
    · have empty : tidy (lines part) = [] := tidy_lines_eq_nil.2 blank
      rw [tidy_cons_blank blank, List.flatMap_cons, empty, List.nil_append, ih]
    · rw [tidy_cons_shown blank, List.flatMap_cons, List.flatMap_cons, tidy_lines_trim, ih]

theorem newline_not_mem_of_mem_lines {text line : List Char} (member : line ∈ lines text) :
    '\n' ∉ line := by
  induction text using lines.induct generalizing line with
  | case1 => simp [lines] at member
  | case2 rest ih =>
    rw [lines] at member
    rcases List.mem_cons.1 member with rfl | later
    · exact List.not_mem_nil
    · exact ih later
  | case3 rest ih =>
    rw [lines] at member
    rcases List.mem_cons.1 member with rfl | later
    · exact List.not_mem_nil
    · exact ih later
  | case4 c rest newline returned ended ih =>
    rw [lines, ended] at member
    · obtain rfl := List.mem_singleton.1 member
      simpa using fun same => newline same.symm
    · exact newline
    · exact returned
  | case5 c rest newline returned first others divided ih =>
    rw [lines, divided] at member
    · rcases List.mem_cons.1 member with rfl | later
      · have inside : '\n' ∉ first := ih (by simp [divided])
        exact List.not_mem_cons_of_ne_of_not_mem (fun same => newline same.symm) inside
      · exact ih (by simp [divided, later])
    · exact newline
    · exact returned

theorem tidy_lines_joinLines_lines (text : List Char) :
    tidy (lines (joinLines (tidy (lines text)))) = tidy (lines text) := by
  rw [tidy_lines_joinLines_tidy, tidy_lines_joinLines]
  have single (parts : List (List Char)) (inside : ∀ part ∈ parts, '\n' ∉ part) :
      (parts.flatMap fun part => tidy (lines part)) = tidy parts := by
    induction parts with
    | nil => rfl
    | cons part others ih =>
      obtain ⟨first, rest⟩ := List.forall_mem_cons.1 inside
      rw [List.flatMap_cons, tidy_lines_single first, ih rest, ← tidy_append, List.singleton_append]
  exact single (lines text) fun _ => newline_not_mem_of_mem_lines

end Spellcraft.Text
