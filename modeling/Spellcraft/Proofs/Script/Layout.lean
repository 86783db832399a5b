import Spellcraft.Proofs.Script.Reading
import Spellcraft.Proofs.Text.Tidy

set_option autoImplicit false

namespace Spellcraft

-- A word without the mark lies on one side of it.
theorem Text.infix_append_cons {word left right : List Char} {mark : Char} (absent : mark ∉ word) :
    word <:+: left ++ mark :: right ↔ word <:+: left ∨ word <:+: right := by
  have start {part : List Char} (absent : mark ∉ part) (starts : part <+: mark :: right) :
      part = [] := by
    cases part with
    | nil => rfl
    | cons c part =>
      obtain ⟨rfl, -⟩ := List.cons_prefix_cons.1 starts
      simp at absent
  constructor
  · intro within
    rcases List.infix_append_iff.1 within with before | behind | ⟨first, rest, rfl, ends, starts⟩
    · exact .inl before
    · rcases List.infix_cons_iff.1 behind with starts | after
      · rw [start absent starts]
        exact .inl List.nil_infix
      · exact .inr after
    · have outside : mark ∉ rest := fun member => absent (List.mem_append_right first member)
      rw [start outside starts, List.append_nil]
      exact .inl ends.isInfix
  · rintro (before | after)
    · exact before.trans (List.prefix_append ..).isInfix
    · exact after.trans ((List.suffix_cons ..).trans (List.suffix_append ..)).isInfix

namespace Keyword

variable {keyword : Keyword} {text : List Char}

theorem mem_inText : keyword ∈ inText text ↔ keyword.name.toList <:+: text.map lower := by
  have listed : keyword ∈ table := by cases keyword <;> decide
  rw [inText, List.mem_filter, Text.occurs_iff, and_iff_right listed]

theorem inText_congr {left right : List Char}
    (same : ∀ keyword, keyword ∈ inText left ↔ keyword ∈ inText right) :
    inText left = inText right := by
  rw [inText, inText]
  refine List.filter_congr fun keyword _ => ?_
  rw [Bool.eq_iff_iff, Text.occurs_iff, Text.occurs_iff, ← mem_inText, ← mem_inText]
  exact same keyword

theorem lower_blank {c : Char} (blank : Text.isBlank c = true) : lower c = c := by
  have kelvin : c ≠ '\u212A' := by
    rintro rfl
    revert blank
    decide
  have letter : ¬ (c.val ≥ 'A'.val ∧ c.val ≤ 'Z'.val) := by
    simp only [Text.isBlank, Bool.or_eq_true, Bool.and_eq_true, decide_eq_true_eq,
      beq_iff_eq] at blank
    have value : c.toNat = c.val.toNat := rfl
    have first : 'A'.val.toNat = 65 := rfl
    have last : 'Z'.val.toNat = 90 := rfl
    rw [ge_iff_le, UInt32.le_iff_toNat_le, UInt32.le_iff_toNat_le]
    omega
  rw [lower, if_neg kelvin]
  exact dif_neg letter

theorem name_shown : ∀ c ∈ keyword.name.toList, Text.isBlank c = false := by
  have shown : keyword.name.toList.all (!Text.isBlank ·) = true := by cases keyword <;> decide
  simpa using shown

-- Keywords have no blank characters, so each lies on one side of every blank of a text.
theorem mem_inText_append_cons {c : Char} (blank : Text.isBlank c = true) {left right : List Char} :
    keyword ∈ inText (left ++ c :: right) ↔ keyword ∈ inText left ∨ keyword ∈ inText right := by
  have absent : c ∉ keyword.name.toList := by
    intro member
    rw [name_shown c member] at blank
    cases blank
  rw [mem_inText, mem_inText, mem_inText, List.map_append, List.map_cons, lower_blank blank]
  exact Text.infix_append_cons absent

theorem not_mem_inText_nil : keyword ∉ inText [] := by
  cases keyword <;> decide

theorem inText_trim (text : List Char) : inText (Text.trim text) = inText text := by
  have front (c : Char) (text : List Char) (blank : Text.isBlank c = true) :
      inText (c :: text) = inText text := by
    refine inText_congr fun keyword => ?_
    rw [← List.nil_append (c :: text), mem_inText_append_cons blank,
      or_iff_right not_mem_inText_nil]
  have back (c : Char) (text : List Char) (blank : Text.isBlank c = true) :
      inText (text ++ [c]) = inText text := by
    refine inText_congr fun keyword => ?_
    rw [mem_inText_append_cons blank, or_iff_left not_mem_inText_nil]
  exact Text.trim_invariant front back text

theorem mem_inText_joinLines {parts : List (List Char)} :
    keyword ∈ inText (Text.joinLines parts) ↔ ∃ part ∈ parts, keyword ∈ inText part := by
  induction parts with
  | nil =>
    have absent : keyword ∉ inText (Text.joinLines []) := not_mem_inText_nil
    simp [absent]
  | cons part others ih =>
    cases others with
    | nil => simp [Text.joinLines]
    | cons next others =>
      rw [Text.joinLines, List.intercalate_cons_cons, List.append_assoc, ← Text.joinLines,
        List.singleton_append, mem_inText_append_cons (by decide), ih]
      simp

theorem mem_inText_tidy {line : List Char} :
    (∃ shown ∈ Text.tidy [line], keyword ∈ inText shown) ↔ keyword ∈ inText line := by
  by_cases blank : Text.Blank line
  · have empty := inText_trim line
    rw [Text.trim_eq_nil.2 blank] at empty
    rw [Text.tidy_cons_blank blank, ← empty]
    simp [not_mem_inText_nil]
  · simp [Text.tidy_cons_shown blank, inText_trim]

theorem mem_inText_lines :
    keyword ∈ inText text ↔ ∃ line ∈ Text.tidy (Text.lines text), keyword ∈ inText line := by
  induction text using Text.lines_induction with
  | single line inside => rw [Text.tidy_lines_single inside, mem_inText_tidy]
  | newline line rest inside ih =>
    have parts : Text.tidy (line :: Text.lines rest) =
        Text.tidy [line] ++ Text.tidy (Text.lines rest) := Text.tidy_append [line] _
    rw [Text.tidy_lines_newline inside, mem_inText_append_cons (by decide), ih, ← mem_inText_tidy,
      parts]
    simp only [List.mem_append, or_and_right, exists_or]

theorem inText_congr_tidy {left right : List Char}
    (same : Text.tidy (Text.lines left) = Text.tidy (Text.lines right)) :
    inText left = inText right :=
  inText_congr fun keyword => by rw [mem_inText_lines, same, ← mem_inText_lines]

end Keyword

namespace Script

open Text

theorem isBind_trim (line : List Char) : isBind (trim line) = isBind line := by
  rw [isBind, isBind, trim_trim]

theorem ofLine?_trim (line : List Char) : Clause.ofLine? (trim line) = Clause.ofLine? line := by
  simp only [Clause.ofLine?, trim_trim]

theorem isBlank_eq (segment : Segment) : segment.isBlank = (tidy segment).isEmpty := by
  rw [Bool.eq_iff_iff, Segment.isBlank, List.all_eq_true, List.isEmpty_iff]
  simp [tidy, trim_eq_nil, allBlank_iff]

theorem gather_tidy (segment : Segment) : gather (tidy segment) = gather segment := by
  have found : (tidy segment).filterMap Clause.ofLine? = segment.filterMap Clause.ofLine? := by
    induction segment with
    | nil => rfl
    | cons line rest ih =>
      rw [List.filterMap_cons, ← ofLine?_trim line]
      by_cases blank : Blank line
      · rw [tidy_cons_blank blank, trim_eq_nil.2 blank, ih]
        rfl
      · rw [tidy_cons_shown blank, List.filterMap_cons, ih]
  simp only [gather, found]

theorem readSpell_congr {left right : Segment} (same : tidy left = tidy right)
    (keywords : List Keyword) (isLast : Bool) :
    readSpell keywords isLast left = readSpell keywords isLast right := by
  rw [readSpell, readSpell, ← gather_tidy left, same, gather_tidy]

-- Blank lines divide nothing.
theorem map_tidy_splitOnP (lines : List (List Char)) :
    (lines.splitOnP isBind).map tidy = (tidy lines).splitOnP isBind := by
  induction lines with
  | nil => rfl
  | cons line rest ih =>
    rw [List.splitOnP_cons_eq_if_modifyHead, ← isBind_trim line]
    by_cases blank : Blank line
    · have inside : isBind (trim line) = false := by
        rw [trim_eq_nil.2 blank]
        rfl
      rw [tidy_cons_blank blank, ← ih, inside, if_neg Bool.false_ne_true]
      cases rest.splitOnP isBind with
      | nil => rfl
      | cons first others => simp [tidy_cons_blank blank]
    · rw [tidy_cons_shown blank, List.splitOnP_cons_eq_if_modifyHead, ← ih]
      by_cases divider : isBind (trim line) = true
      · rw [if_pos divider, if_pos divider]
        rfl
      · rw [if_neg divider, if_neg divider]
        cases rest.splitOnP isBind with
        | nil => rfl
        | cons first others => simp [tidy_cons_shown blank]

theorem unsealLine?_cons {c : Char} (blank : isBlank c = true) (line : List Char) :
    unsealLine? (c :: line) = (unsealLine? line).map (c :: ·) := by
  refine Option.ext fun rest => ?_
  rw [unsealLine?_eq_some, Option.map_eq_some_iff]
  simp only [unsealLine?_eq_some]
  by_cases shown : Blank line
  · have unshown : Blank (c :: line) := List.forall_mem_cons.2 ⟨blank, shown⟩
    simp [trimEnd_eq_nil.2 shown, trimEnd_eq_nil.2 unshown]
  · rw [trimEnd_cons shown]
    constructor
    · rintro ⟨ends, apart⟩
      cases rest with
      | nil =>
        obtain ⟨rfl, -⟩ := List.cons.inj ends
        cases blank
      | cons d rest =>
        obtain ⟨rfl, sealed⟩ := List.cons.inj ends
        refine ⟨rest, ⟨sealed, fun last member => apart last ?_⟩, rfl⟩
        exact List.mem_getLast?_cons member
    · rintro ⟨rest, ⟨ends, apart⟩, rfl⟩
      refine ⟨by rw [ends]; rfl, ?_⟩
      cases rest with
      | nil => simpa using blank
      | cons d rest => simpa using apart

theorem unsealLine?_trim (line : List Char) :
    (unsealLine? (trim line)).map trim = (unsealLine? line).map trim := by
  have front (c : Char) (line : List Char) (blank : isBlank c = true) :
      (unsealLine? (c :: line)).map trim = (unsealLine? line).map trim := by
    rw [unsealLine?_cons blank, Option.map_map]
    exact congrArg (Option.map · _) (funext fun rest => trim_cons blank)
  have back (c : Char) (line : List Char) (blank : isBlank c = true) :
      (unsealLine? (line ++ [c])).map trim = (unsealLine? line).map trim := by
    rw [unsealLine?, unsealLine?, trimEnd_concat blank]
  exact trim_invariant (f := fun line => (unsealLine? line).map trim) front back line

theorem tidy_dropWhile (lines : List (List Char)) :
    tidy (lines.dropWhile allBlank) = tidy lines := by
  induction lines with
  | nil => rfl
  | cons line rest ih =>
    by_cases blank : allBlank line = true
    · rw [List.dropWhile_cons_of_pos blank, tidy_cons_blank (allBlank_iff.1 blank)]
      exact ih
    · rw [List.dropWhile_cons_of_neg blank]

theorem dropWhile_tidy (lines : List (List Char)) :
    (tidy lines).dropWhile allBlank = tidy lines := by
  rw [List.dropWhile_eq_self_iff]
  intro some
  rw [allBlank_iff]
  exact shown_of_mem_tidy (List.getElem_mem some)

-- The last line that is shown is the last of the tidy lines.
theorem unseal?_tidy (segment : Segment) :
    (unseal? (tidy segment)).map tidy = (unseal? segment).map tidy := by
  have tidied : tidy (segment.reverse.dropWhile allBlank) = (tidy segment).reverse := by
    rw [tidy_dropWhile, tidy_reverse]
  rw [unseal?, unseal?, ← tidy_reverse, dropWhile_tidy, tidy_reverse, ← tidied]
  cases lines : segment.reverse.dropWhile allBlank with
  | nil => rfl
  | cons last before =>
    have shown : ¬ Blank last := by
      have head := List.head?_dropWhile_not allBlank segment.reverse
      rw [lines] at head
      simpa [← allBlank_iff] using head
    have body (line : List Char) (lines : Segment) (same : tidy lines = tidy before) :
        ((unsealLine? line).map fun rest => (rest :: lines).reverse).map tidy =
          ((unsealLine? line).map trim).map fun rest => (tidy (rest :: before)).reverse := by
      rw [Option.map_map, Option.map_map]
      refine congrArg (Option.map · _) (funext fun rest => ?_)
      have parts (rest : List Char) (lines : Segment) : tidy (rest :: lines) =
          tidy [rest] ++ tidy lines := tidy_append [rest] lines
      simp only [Function.comp_apply, tidy_reverse, parts rest lines, parts (trim rest) before,
        same, tidy_cons_congr (trim_trim rest)]
    rw [tidy_cons_shown shown]
    exact (body _ _ (tidy_tidy before)).trans
      ((congrArg _ (unsealLine?_trim last)).trans (body _ _ rfl).symm)

theorem unseal?_congr {left right : Segment} (same : tidy left = tidy right) :
    (unseal? left = none ∧ unseal? right = none) ∨
      ∃ body other, unseal? left = some body ∧ unseal? right = some other ∧
        tidy body = tidy other := by
  have bodies : (unseal? left).map tidy = (unseal? right).map tidy := by
    rw [← unseal?_tidy left, same, unseal?_tidy]
  cases unsealed : unseal? left with
  | none => exact .inl ⟨rfl, by simpa [unsealed] using bodies⟩
  | some body =>
    rw [unsealed, Option.map_some] at bodies
    obtain ⟨other, found, alike⟩ := Option.map_eq_some_iff.1 bodies.symm
    exact .inr ⟨body, other, rfl, found, alike.symm⟩

theorem readSegments_congr {left right : List Segment} (same : left.map tidy = right.map tidy)
    (keywords : List Keyword) (position : Nat) :
    readSegments keywords position left = readSegments keywords position right := by
  induction left generalizing right position with
  | nil =>
    obtain rfl : right = [] := by simpa using same.symm
    rfl
  | cons segment others ih =>
    obtain ⟨segment', others', rfl, first, rest⟩ := List.map_eq_cons_iff.1 same.symm
    by_cases last : others = []
    · subst last
      obtain rfl : others' = [] := by simpa using rest
      rw [readSegments, readSegments]
      obtain ⟨none, none'⟩ | ⟨body, other, some, some', alike⟩ := unseal?_congr first.symm
      · rw [none, none']
      · rw [some, some']
        simp only [readSpell_congr alike]
    · have follows : others' ≠ [] := by
        rintro rfl
        exact last (by simpa using rest.symm)
      rw [readSegments, readSegments]
      · obtain ⟨none, none'⟩ | ⟨body, other, some, some', -⟩ := unseal?_congr first.symm
        · rw [none, none']
          simp only [readSpell_congr first.symm, ih rest.symm]
        · rw [some, some']
      · exact follows
      · exact last

theorem read_congr {left right : List Char} (same : tidy (lines left) = tidy (lines right)) :
    read left = read right := by
  have keywords := Keyword.inText_congr_tidy same
  have blank : allBlank left = allBlank right := by
    rw [Bool.eq_iff_iff, allBlank_iff, allBlank_iff, ← tidy_lines_eq_nil, same, tidy_lines_eq_nil]
  have parts : (segments left).map tidy = (segments right).map tidy := by
    rw [segments, segments, map_tidy_splitOnP, map_tidy_splitOnP, same]
  have dangling : (segments left).any Segment.isBlank = (segments right).any Segment.isBlank := by
    have whole (parts : List Segment) :
        parts.any Segment.isBlank = (parts.map tidy).any List.isEmpty := by
      rw [List.any_map]
      exact congrArg _ (funext isBlank_eq)
    rw [whole, parts, ← whole]
  simp only [read, blank, dangling, keywords, readSegments_congr parts]

end Script

end Spellcraft
