import Spellcraft.Proofs.Script.Layout

set_option autoImplicit false

namespace Spellcraft.Script

open Text

/-- The same value, or two errors of which one may stand for the other. -/
inductive Agree {Value : Type} (related : ScriptError → ScriptError → Prop) :
    Except ScriptError Value → Except ScriptError Value → Prop where
  | ok (value : Value) : Agree related (.ok value) (.ok value)
  | error {left right : ScriptError} (alike : related left right) :
      Agree related (.error left) (.error right)

/-- One error, or two that each name a clause given more than once. -/
def Alike (left right : ScriptError) : Prop :=
  left = right ∨ ∃ clause other, left = .duplicateClause clause ∧ right = .duplicateClause other

/-- In one segment the lines in front of the last one shown stand in another order. -/
def Reorders (left right : List Char) : Prop :=
  ∃ front moved others last blanks back,
    moved.Perm others ∧ ¬ Blank last ∧ (∀ line ∈ blanks, Blank line) ∧
    Divides (lines left) (front ++ (moved ++ last :: blanks) :: back) ∧
    Divides (lines right) (front ++ (others ++ last :: blanks) :: back)

/-- The line stands in front of the last one shown in a segment, on the right only. -/
def Inserts (line left right : List Char) : Prop :=
  ∃ front before after last blanks back,
    ¬ Blank last ∧ (∀ line ∈ blanks, Blank line) ∧
    Divides (lines left) (front ++ (before ++ after ++ last :: blanks) :: back) ∧
    Divides (lines right) (front ++ (before ++ line :: after ++ last :: blanks) :: back)

structure Idle (line : List Char) : Prop where
  clause : ∀ (clause : Clause) (raw : List Char), ¬ clause.Starts line raw
  keyword : Keyword.inText line = []

section Agreement

variable {Value Result : Type} {related : ScriptError → ScriptError → Prop}

theorem Agree.refl (reflexive : ∀ error, related error error) (result : Except ScriptError Value) :
    Agree related result result := by
  cases result with
  | error error => exact .error (reflexive error)
  | ok value => exact .ok value

theorem Agree.bind {left right : Except ScriptError Value}
    {next other : Value → Except ScriptError Result} (agree : Agree related left right)
    (follows : ∀ value, Agree related (next value) (other value)) :
    Agree related (left >>= next) (right >>= other) := by
  cases agree with
  | ok value => exact follows value
  | error alike => exact .error alike

theorem agree_eq {left right : Except ScriptError Value} :
    Agree Eq left right ↔ left = right := by
  constructor
  · rintro (value | ⟨rfl⟩) <;> rfl
  · rintro rfl
    exact .refl (fun _ => rfl) left

theorem Alike.refl (error : ScriptError) : Alike error error :=
  .inl rfl

end Agreement

section Segments

variable {keyword : Keyword} {script : List Char} {parts : List Segment}

theorem mem_inText_iff_lines :
    keyword ∈ Keyword.inText script ↔ ∃ line ∈ lines script, keyword ∈ Keyword.inText line := by
  rw [Keyword.mem_inText_lines]
  induction lines script with
  | nil => simp
  | cons line rest ih =>
    have shown : tidy (line :: rest) = tidy [line] ++ tidy rest := tidy_append [line] rest
    rw [shown]
    simp only [List.mem_append, or_and_right, exists_or, ih, Keyword.mem_inText_tidy,
      List.exists_mem_cons_iff]

theorem mem_inText_segments (divides : Divides (lines script) parts) :
    keyword ∈ Keyword.inText script ↔
      ∃ segment ∈ parts, ∃ line ∈ segment, keyword ∈ Keyword.inText line := by
  have silent {line : List Char} (divider : trim line = "bind".toList) :
      keyword ∉ Keyword.inText line := by
    have none : Keyword.inText "bind".toList = [] := by decide
    rw [← Keyword.inText_trim, divider, none]
    exact List.not_mem_nil
  rw [mem_inText_iff_lines]
  generalize lines script = all at divides
  induction divides with
  | last inside => simp
  | bind inside divider divides ih =>
    simp only [List.mem_append, List.mem_cons, or_and_right, exists_or, exists_eq_left, ih,
      silent divider, false_or]

theorem shown_of_divides (divides : Divides (lines script) parts) {segment : Segment}
    {line : List Char} (member : segment ∈ parts) (within : line ∈ segment)
    (shown : ¬ Blank line) : allBlank script = false := by
  have listed : line ∈ lines script := by
    generalize lines script = all at divides
    induction divides with
    | last inside =>
      obtain rfl := List.mem_singleton.1 member
      exact within
    | bind inside divider divides ih =>
      rcases List.mem_cons.1 member with rfl | later
      · exact List.mem_append_left _ within
      · exact List.mem_append_right _ (List.mem_cons_of_mem _ (ih later))
  rw [Bool.eq_false_iff, Ne, allBlank_iff, ← tidy_lines_eq_nil]
  intro empty
  obtain ⟨before, after, same⟩ := List.append_of_mem listed
  rw [same, tidy_append, tidy_cons_shown shown] at empty
  simp at empty

end Segments

section Changes

variable {related : ScriptError → ScriptError → Prop} {moved others blanks left right : Segment}
  {last : List Char} {keywords : List Keyword}

theorem unseal?_last (shown : ¬ Blank last) (blank : ∀ line ∈ blanks, Blank line) :
    unseal? (moved ++ last :: blanks) =
      (unsealLine? last).map fun rest => moved ++ [rest] := by
  have passed : ∀ line ∈ blanks.reverse, allBlank line = true := fun line member =>
    allBlank_iff.2 (blank line (List.mem_reverse.1 member))
  have stops : ¬ allBlank last = true := mt allBlank_iff.1 shown
  have found : (moved ++ last :: blanks).reverse.dropWhile allBlank = last :: moved.reverse := by
    rw [List.reverse_append, List.reverse_cons, List.append_assoc,
      List.dropWhile_append_of_pos passed, List.singleton_append,
      List.dropWhile_cons_of_neg stops]
  rw [unseal?, found]
  simp

def ReadAlike (related : ScriptError → ScriptError → Prop) (left right : Segment) : Prop :=
  ∀ keywords isLast rest,
    Agree related (readSpell keywords isLast (left ++ rest))
      (readSpell keywords isLast (right ++ rest))

-- A segment is read whole or without its seal, and the lines in question stand in both.
theorem readSegments_agree (reflexive : ∀ error, related error error) (shown : ¬ Blank last)
    (blank : ∀ line ∈ blanks, Blank line) (alike : ReadAlike related moved others)
    (front back : List Segment) (position : Nat) :
    Agree related
      (readSegments keywords position (front ++ (moved ++ last :: blanks) :: back))
      (readSegments keywords position (front ++ (others ++ last :: blanks) :: back)) := by
  induction front generalizing position with
  | nil =>
    rw [List.nil_append, List.nil_append]
    cases back with
    | nil =>
      rw [readSegments, readSegments, unseal?_last shown blank, unseal?_last shown blank]
      cases unsealLine? last with
      | none => exact .error (reflexive _)
      | some rest =>
        apply Agree.bind (alike keywords true [rest])
        exact fun spell => .ok [spell]
    | cons next back =>
      have follows : next :: back ≠ [] := List.cons_ne_nil next back
      rw [readSegments.eq_3 _ _ _ _ follows, readSegments.eq_3 _ _ _ _ follows,
        unseal?_last shown blank, unseal?_last shown blank]
      cases unsealLine? last with
      | some rest => exact .error (reflexive _)
      | none =>
        apply Agree.bind (alike keywords false (last :: blanks))
        exact fun spell => .refl reflexive _
  | cons first front ih =>
    have follows (segment : Segment) : front ++ segment :: back ≠ [] := by simp
    rw [List.cons_append, List.cons_append, readSegments, readSegments]
    · cases unseal? first with
      | some rest => exact .error (reflexive _)
      | none =>
        apply Agree.bind (.refl reflexive _)
        exact fun spell => Agree.bind (ih (position + 1)) fun spells => .ok (spell :: spells)
    · exact follows _
    · exact follows _

theorem read_agree {script other : List Char} {front back : List Segment}
    (reflexive : ∀ error, related error error) (shown : ¬ Blank last)
    (blank : ∀ line ∈ blanks, Blank line) (alike : ReadAlike related moved others)
    (divides : Divides (lines script) (front ++ (moved ++ last :: blanks) :: back))
    (divides' : Divides (lines other) (front ++ (others ++ last :: blanks) :: back))
    (mentions : ∀ keyword, (∃ line ∈ moved, keyword ∈ Keyword.inText line) ↔
      ∃ line ∈ others, keyword ∈ Keyword.inText line) :
    Agree related (read script) (read other) := by
  have keywords : Keyword.inText script = Keyword.inText other := by
    refine Keyword.inText_congr fun keyword => ?_
    rw [mem_inText_segments divides, mem_inText_segments divides']
    simp only [List.mem_append, List.mem_cons, or_and_right, exists_or, exists_eq_left,
      mentions keyword]
  have inhabited (lines : Segment) : Segment.isBlank (lines ++ last :: blanks) = false := by
    rw [Bool.eq_false_iff, Ne, isBlank_iff]
    exact fun empty => shown (empty last (by simp))
  have dangling (lines : Segment) :
      (front ++ (lines ++ last :: blanks) :: back).any Segment.isBlank =
        (front ++ back).any Segment.isBlank := by
    simp [inhabited lines]
  have parts : segments script = front ++ (moved ++ last :: blanks) :: back :=
    divides_iff.1 divides
  have parts' : segments other = front ++ (others ++ last :: blanks) :: back :=
    divides_iff.1 divides'
  have written := shown_of_divides divides
    (List.mem_append_right _ (List.mem_cons_self ..)) (by simp) shown
  have written' := shown_of_divides divides'
    (List.mem_append_right _ (List.mem_cons_self ..)) (by simp) shown
  simp only [read, written, written', parts, parts', dangling, keywords, Bool.false_eq_true,
    if_false]
  split
  · exact .error (reflexive _)
  · exact readSegments_agree reflexive shown blank alike front back 1

theorem gather_perm (perm : left.Perm right) :
    (∃ found found', gather left = .ok found ∧ gather right = .ok found' ∧
      ∀ clause, found.get clause = found'.get clause) ∨
    ∃ clause other, gather left = .error (.duplicateClause clause) ∧
      gather right = .error (.duplicateClause other) := by
  have listed : (entries left).Perm (entries right) := perm.filterMap Clause.ofLine?
  have keys : ((entries left).map Prod.fst).Perm ((entries right).map Prod.fst) :=
    listed.map Prod.fst
  by_cases distinct : ((entries left).map Prod.fst).Nodup
  · have distinct' := keys.nodup_iff.1 distinct
    refine .inl ⟨_, _, gather_eq_ok.2 ⟨rfl, distinct⟩, gather_eq_ok.2 ⟨rfl, distinct'⟩, ?_⟩
    intro clause
    have same : (entries left).lookup clause = (entries right).lookup clause := by
      refine Option.ext fun value => ?_
      rw [lookup_eq_some_iff_mem distinct,
        lookup_eq_some_iff_mem distinct', listed.mem_iff]
    rw [Values.get, Values.get, same]
  · have repeats {segment : Segment} (again : ¬ ((entries segment).map Prod.fst).Nodup) :
        ∃ clause, gather segment = .error (.duplicateClause clause) := by
      rw [gather, ← entries]
      cases first : repeated? [] ((entries segment).map Prod.fst) with
      | some clause => exact ⟨clause, rfl⟩
      | none => exact absurd (repeated?_eq_none.1 first).1 again
    obtain ⟨clause, failed⟩ := repeats distinct
    obtain ⟨other, failed'⟩ := repeats (mt keys.nodup_iff.2 distinct)
    exact .inr ⟨clause, other, failed, failed'⟩

theorem readAlike_of_perm (perm : left.Perm right) : ReadAlike Alike left right := by
  intro keywords isLast rest
  rw [readSpell, readSpell]
  rcases gather_perm (perm.append_right rest) with
    ⟨found, found', gathered, gathered', same⟩ | ⟨clause, other, failed, failed'⟩
  · rw [gathered, gathered']
    simp only [Fault.ok_bind, same]
    exact .refl .refl _
  · rw [failed, failed']
    exact .error (.inr ⟨clause, other, rfl, rfl⟩)

theorem Idle.ofLine?_eq_none {line : List Char} (idle : Idle line) :
    Clause.ofLine? line = none := by
  rw [Option.eq_none_iff_forall_ne_some]
  rintro ⟨clause, value⟩ told
  obtain ⟨raw, starts, -⟩ := Clause.ofLine?_eq_some.1 told
  exact idle.clause clause raw starts

theorem Idle.readAlike {line : List Char} (idle : Idle line) (before after : Segment) :
    ReadAlike Eq (before ++ after) (before ++ line :: after) := by
  intro keywords isLast rest
  have same : gather (before ++ after ++ rest) = gather (before ++ line :: after ++ rest) := by
    simp [gather, idle.ofLine?_eq_none]
  rw [agree_eq, readSpell, readSpell, same]

end Changes

/-- A script is read the same in every layout, with the lines of a segment in another order, and
with lines that say nothing among them; and lines joined mention what one of them mentions. -/
theorem arrangement_unnoticed (script : String) :
    Spell.ofScript (String.ofList (joinLines (tidy (lines script.toList)))) =
      Spell.ofScript script ∧
    (∀ other : String, Reorders script.toList other.toList →
      Agree Alike (Spell.ofScript script) (Spell.ofScript other)) ∧
    (∀ (line : List Char) (other : String), Idle line → Inserts line script.toList other.toList →
      Spell.ofScript other = Spell.ofScript script) ∧
    ∀ (parts : List (List Char)) (keyword : Keyword),
      keyword ∈ Keyword.inText (joinLines parts) ↔
        ∃ part ∈ parts, keyword ∈ Keyword.inText part := by
  refine ⟨?_, ?_, ?_, fun parts keyword => Keyword.mem_inText_joinLines⟩
  · rw [Spell.ofScript, String.toList_ofList]
    exact read_congr (tidy_lines_joinLines_lines script.toList)
  · rintro other ⟨front, moved, others, last, blanks, back, perm, shown, blank, divides, divides'⟩
    refine read_agree Alike.refl shown blank (readAlike_of_perm perm) divides divides' ?_
    intro keyword
    simp only [perm.mem_iff]
  · rintro line other idle ⟨front, before, after, last, blanks, back, shown, blank, divides,
      divides'⟩
    refine (agree_eq.1 (read_agree (fun _ => rfl) shown blank (idle.readAlike before after) divides
      divides' fun keyword => ?_)).symm
    simp [idle.keyword, or_and_right, exists_or]

-- Which of two repeated clauses is named depends on the order; a remark in front of the seal does
-- not show.
theorem arrangement_unnoticed_swapped :
    Agree Alike
      (Spell.ofScript "anchor: Self\nfocus: Time\nshift: 2%\nfocus: Mana\nshift: 3%\nseal")
      (Spell.ofScript "shift: 2%\nshift: 3%\nfocus: Time\nfocus: Mana\nanchor: Self\nseal") ∧
    Spell.ofScript "focus: Time\nanchor: Self\nshift: 2%\ncost: 1E\nto rest\nintent: \"x\" seal" =
      Spell.ofScript "focus: Time\nanchor: Self\nshift: 2%\ncost: 1E\nintent: \"x\" seal" := by
  have whole {script : String} {segment : Segment} (same : segments script.toList = [segment]) :
      Divides (lines script.toList) ([] ++ [segment]) :=
    divides_iff.2 same
  have shown {line : List Char} (found : ¬ allBlank line = true) : ¬ Blank line :=
    mt allBlank_iff.2 found
  constructor
  · refine (arrangement_unnoticed _).2.1 _ ⟨[],
      ["anchor: Self".toList, "focus: Time".toList, "shift: 2%".toList, "focus: Mana".toList,
        "shift: 3%".toList],
      ["shift: 2%".toList, "shift: 3%".toList, "focus: Time".toList, "focus: Mana".toList,
        "anchor: Self".toList],
      "seal".toList, [], [], ?_, shown (by decide), by simp, whole (by decide), whole (by decide)⟩
    decide
  · refine (arrangement_unnoticed _).2.2.1 "to rest".toList _ ⟨?_, by decide⟩ ⟨[],
      ["focus: Time".toList, "anchor: Self".toList, "shift: 2%".toList, "cost: 1E".toList], [],
      "intent: \"x\" seal".toList, [], [], shown (by decide), by simp, whole (by decide),
      whole (by decide)⟩
    intro clause raw starts
    have silent : Clause.ofLine? "to rest".toList = none := by decide
    rw [Clause.ofLine?_eq_some.2 ⟨raw, starts, rfl⟩] at silent
    cases silent

end Spellcraft.Script
