import Spellcraft.Proofs.Fault
import Spellcraft.Proofs.Script.Values

set_option autoImplicit false

namespace Spellcraft

theorem Text.allBlank_iff {text : List Char} : Text.allBlank text = true ↔ Text.Blank text :=
  List.all_eq_true

theorem Clause.key_eq_of_starts {clause other : Clause} {line raw left : List Char}
    (starts : clause.Starts line raw) (also : other.Starts line left) : clause = other := by
  rw [Starts] at starts also
  rw [starts] at also
  cases clause <;> cases other <;> first | rfl | simp [key] at also

-- No two keys can start the same line, so the first clause found is the only one.
theorem Clause.ofLine?_eq_some {clause : Clause} {line value : List Char} :
    Clause.ofLine? line = some (clause, value) ↔
      ∃ raw, clause.Starts line raw ∧ value = Text.trim raw := by
  have found (entry : Clause × List Char) (other : Clause) :
      ((Text.after? (other.key.toList ++ [':']) (Text.trim line)).map fun value =>
        (other, Text.trim value)) = some entry ↔
          ∃ raw, other.Starts line raw ∧ (other, Text.trim raw) = entry := by
    simp only [Option.map_eq_some_iff, Text.after?_eq_some, Starts, List.append_assoc,
      List.singleton_append]
  constructor
  · intro read
    obtain ⟨other, -, told⟩ := List.exists_of_findSome?_eq_some read
    obtain ⟨raw, starts, same⟩ := (found _ other).1 told
    cases same
    exact ⟨raw, starts, rfl⟩
  · rintro ⟨raw, starts, rfl⟩
    have member : clause ∈ all := by cases clause <;> decide
    have some : (ofLine? line).isSome = true := by
      refine List.findSome?_isSome_iff.2 ⟨clause, member, ?_⟩
      rw [(found (clause, Text.trim raw) clause).2 ⟨raw, starts, rfl⟩]
      rfl
    obtain ⟨entry, read⟩ := Option.isSome_iff_exists.1 some
    obtain ⟨other, -, told⟩ := List.exists_of_findSome?_eq_some read
    obtain ⟨left, also, rfl⟩ := (found entry other).1 told
    obtain rfl := key_eq_of_starts starts also
    rw [Starts] at starts also
    have same : left = raw := by simpa using also.symm.trans starts
    rw [read, same]

namespace Script

variable {segment : Segment} {clause : Clause} {value : List Char}

theorem repeated?_eq_none {seen clauses : List Clause} :
    repeated? seen clauses = none ↔ clauses.Nodup ∧ ∀ clause ∈ clauses, clause ∉ seen := by
  induction clauses generalizing seen with
  | nil => simp [repeated?]
  | cons clause rest ih =>
    by_cases known : clause ∈ seen
    · simp [repeated?, known]
    · simp only [repeated?, known, if_false, ih, List.mem_cons, not_or, List.nodup_cons]
      constructor
      · rintro ⟨distinct, fresh⟩
        refine ⟨⟨fun later => (fresh clause later).1 rfl, distinct⟩, ?_⟩
        rintro other (rfl | later)
        · exact known
        · exact (fresh other later).2
      · rintro ⟨⟨unrepeated, distinct⟩, fresh⟩
        refine ⟨distinct, fun other later => ⟨?_, fresh other (.inr later)⟩⟩
        rintro rfl
        exact unrepeated later

def entries (segment : Segment) : Values :=
  segment.filterMap Clause.ofLine?

theorem gives_iff_entries :
    Gives segment clause value ↔
      ∃ before line after, segment = before ++ line :: after ∧
        Clause.ofLine? line = some (clause, value) ∧
        ∀ other ∈ before ++ after, ∀ value, Clause.ofLine? other ≠ some (clause, value) := by
  simp only [Gives, ne_eq, Clause.ofLine?_eq_some]
  constructor
  · rintro ⟨before, line, after, raw, parts, starts, told, once⟩
    refine ⟨before, line, after, parts, ⟨raw, starts, told⟩, ?_⟩
    rintro other member value ⟨left, again, -⟩
    exact once other member left again
  · rintro ⟨before, line, after, parts, ⟨raw, starts, told⟩, once⟩
    refine ⟨before, line, after, raw, parts, starts, told, ?_⟩
    intro other member left again
    exact once other member _ ⟨left, again, rfl⟩

-- A clause that is given stands once among the entries.
theorem Gives.entries (gives : Gives segment clause value) :
    ∃ before after, entries segment = before ++ (clause, value) :: after ∧
      clause ∉ (before ++ after).map Prod.fst := by
  obtain ⟨before, line, after, rfl, read, once⟩ := gives_iff_entries.1 gives
  refine ⟨before.filterMap Clause.ofLine?, after.filterMap Clause.ofLine?, ?_, ?_⟩
  · simp [Script.entries, read]
  · intro member
    obtain ⟨⟨other, told⟩, found, rfl⟩ := List.mem_map.1 member
    rw [← List.filterMap_append] at found
    obtain ⟨line, within, read⟩ := List.mem_filterMap.1 found
    exact once line within told read

theorem Gives.lookup (gives : Gives segment clause value) :
    (Script.entries segment).lookup clause = some value := by
  obtain ⟨before, after, parts, once⟩ := gives.entries
  rw [parts, List.lookup_eq_some_iff]
  refine ⟨before, after, rfl, fun entry member => ?_⟩
  have apart : clause ≠ entry.1 := by
    rintro rfl
    exact once (List.mem_map_of_mem (List.mem_append_left after member))
  simpa using apart

theorem Gives.count (gives : Gives segment clause value) :
    ((Script.entries segment).map Prod.fst).count clause = 1 := by
  obtain ⟨before, after, parts, once⟩ := gives.entries
  rw [List.map_append, List.mem_append, not_or] at once
  simp [parts, List.count_eq_zero.2 once.1, List.count_eq_zero.2 once.2]

-- The entry that is found comes from one line, and no other line could have given it too.
theorem gives_of_lookup (distinct : ((entries segment).map Prod.fst).Nodup)
    (found : (entries segment).lookup clause = some value) : Gives segment clause value := by
  obtain ⟨earlier, later, parts, -⟩ := List.lookup_eq_some_iff.1 found
  have once : clause ∉ (earlier ++ later).map Prod.fst := by
    rw [parts, List.map_append, List.map_cons, List.nodup_middle] at distinct
    simpa using (List.nodup_cons.1 distinct).1
  obtain ⟨before, others, rfl, rfl, rest⟩ := List.filterMap_eq_append_iff.1 parts
  obtain ⟨skipped, line, after, rfl, unread, read, rfl⟩ := List.filterMap_eq_cons_iff.1 rest
  refine gives_iff_entries.2 ⟨before ++ skipped, line, after, by simp, read, ?_⟩
  intro other member value again
  have told (lines : Segment) (within : other ∈ lines) :
      (clause, value) ∈ lines.filterMap Clause.ofLine? :=
    List.mem_filterMap.2 ⟨other, within, again⟩
  simp only [List.append_assoc, List.mem_append] at member
  rcases member with ahead | between | behind
  · exact once (List.mem_map_of_mem (List.mem_append_left _ (told before ahead)))
  · rw [unread other between] at again
    cases again
  · exact once (List.mem_map_of_mem (List.mem_append_right _ (told after behind)))

theorem gather_eq_ok {found : Values} :
    gather segment = .ok found ↔
      found = entries segment ∧ ((entries segment).map Prod.fst).Nodup := by
  have distinct : repeated? [] ((entries segment).map Prod.fst) = none ↔
      ((entries segment).map Prod.fst).Nodup := by simp [repeated?_eq_none]
  rw [← distinct, gather, ← entries]
  cases repeated? [] ((entries segment).map Prod.fst) <;> simp [eq_comm]

theorem get_eq_ok {found : Values} (gathered : gather segment = .ok found) :
    found.get clause = .ok value ↔ Gives segment clause value := by
  obtain ⟨rfl, distinct⟩ := gather_eq_ok.1 gathered
  have read : (entries segment).get clause = .ok value ↔
      (entries segment).lookup clause = some value := by
    rw [Values.get]
    cases (entries segment).lookup clause <;> simp
  exact read.trans ⟨gives_of_lookup distinct, Gives.lookup⟩

theorem gather_ok (gives : ∀ clause, ∃ value, Gives segment clause value) :
    ∃ found, gather segment = .ok found := by
  refine ⟨_, gather_eq_ok.2 ⟨rfl, List.nodup_iff_count_le_one.2 fun clause => ?_⟩⟩
  obtain ⟨value, given⟩ := gives clause
  exact given.count.le

-- Each value is read in the order of the clauses, but all of them must be given once, in any order.
theorem readSpell_eq_ok {keywords : List Keyword} {isLast : Bool} {spell : Spell} :
    readSpell keywords isLast segment = .ok spell ↔ Tells keywords isLast segment spell := by
  simp only [readSpell, Fault.bind_eq_ok]
  constructor
  · rintro ⟨found, gathered, focus, focusGiven, _, focusRead, anchor, anchorGiven, _, anchorRead,
      shift, shiftGiven, _, shiftRead, cost, costGiven, _, costRead, intent, intentGiven, _,
      intentRead, done⟩
    cases done
    simp only [get_eq_ok gathered] at focusGiven anchorGiven shiftGiven costGiven intentGiven
    obtain rfl := readFocus_eq_ok.1 focusRead
    obtain ⟨shown, rfl, amount⟩ := readShift_eq_ok.1 shiftRead
    obtain ⟨stated, rfl, worth⟩ := readCost_eq_ok.1 costRead
    obtain ⟨inner, rest, rfl, quoted⟩ := readIntent_eq_ok.1 intentRead
    exact ⟨focusGiven, ⟨anchor, anchorGiven, readAnchor_eq_ok.1 anchorRead⟩,
      ⟨shown, shiftGiven, amount⟩, ⟨stated, costGiven, worth⟩, ⟨inner, rest, intentGiven, quoted⟩,
      rfl, rfl, rfl, rfl⟩
  · intro tells
    obtain ⟨anchor, anchorGiven, anchors⟩ := tells.anchor
    obtain ⟨shown, shiftGiven, amount⟩ := tells.shift
    obtain ⟨stated, costGiven, worth⟩ := tells.cost
    obtain ⟨inner, rest, intentGiven, quoted⟩ := tells.intent
    obtain ⟨found, gathered⟩ : ∃ found, gather segment = .ok found := by
      refine gather_ok fun clause => ?_
      cases clause with
      | focus => exact ⟨_, tells.focus⟩
      | anchor => exact ⟨_, anchorGiven⟩
      | shift => exact ⟨_, shiftGiven⟩
      | cost => exact ⟨_, costGiven⟩
      | intent => exact ⟨_, intentGiven⟩
    refine ⟨found, gathered, _, (get_eq_ok gathered).2 tells.focus, _, readFocus_eq_ok.2 rfl,
      _, (get_eq_ok gathered).2 anchorGiven, _, readAnchor_eq_ok.2 anchors,
      _, (get_eq_ok gathered).2 shiftGiven, _, readShift_eq_ok.2 ⟨shown, rfl, amount⟩,
      _, (get_eq_ok gathered).2 costGiven, _, readCost_eq_ok.2 ⟨stated, rfl, worth⟩,
      _, (get_eq_ok gathered).2 intentGiven, _, readIntent_eq_ok.2 ⟨inner, rest, rfl, quoted⟩, ?_⟩
    rw [← tells.bound, ← tells.sealed, ← tells.privileged, ← tells.keywords]
    rfl

theorem isBind_iff {line : List Char} :
    isBind line = true ↔ Text.trim line = "bind".toList := by
  simp [isBind]

theorem Divides.before {line : List Char} {lines : List (List Char)} {parts : List Segment}
    (inside : Text.trim line ≠ "bind".toList) (divides : Divides lines parts) :
    Divides (line :: lines) (parts.modifyHead (line :: ·)) := by
  cases divides with
  | last within =>
    refine .last fun other member => ?_
    rcases List.mem_cons.1 member with rfl | later
    · exact inside
    · exact within other later
  | @bind segment _ _ _ within divider divides =>
    have wider : ∀ other ∈ line :: segment, Text.trim other ≠ "bind".toList := by
      intro other member
      rcases List.mem_cons.1 member with rfl | later
      · exact inside
      · exact within other later
    exact .bind wider divider divides

-- The induction is on the derivation one way and on the lines the other, where each line either
-- divides or joins the first segment of the rest.
theorem divides_iff {lines : List (List Char)} {parts : List Segment} :
    Divides lines parts ↔ lines.splitOnP isBind = parts := by
  have unbound {segment : Segment} (inside : ∀ line ∈ segment, Text.trim line ≠ "bind".toList) :
      segment.splitOnP isBind = [segment] := by
    refine List.splitOnP_eq_singleton fun line member => ?_
    rw [Bool.eq_false_iff, Ne, isBind_iff]
    exact inside line member
  constructor
  · intro divides
    induction divides with
    | last inside => exact unbound inside
    | bind inside divider _ ih =>
      rw [List.splitOnP_append_cons _ _ (isBind_iff.2 divider), unbound inside, ih]
      rfl
  · rintro rfl
    induction lines with
    | nil => exact .last (by simp)
    | cons line rest ih =>
      rw [List.splitOnP_cons_eq_if_modifyHead]
      split
      · next divider =>
        have empty : ∀ line ∈ ([] : Segment), Text.trim line ≠ "bind".toList := by simp
        exact .bind empty (isBind_iff.1 divider) ih
      · next inside =>
        rw [isBind_iff] at inside
        exact ih.before inside

theorem unsealLine?_eq_some {line rest : List Char} :
    unsealLine? line = some rest ↔
      Text.trimEnd line = rest ++ "seal".toList ∧ ∀ c ∈ rest.getLast?, Text.isBlank c = true := by
  rw [unsealLine?, Option.filter_eq_some_iff, Text.before?_eq_some, Option.all_eq_true]
  rfl

-- The line that may seal is found from the back, past the blank ones.
theorem unseal?_eq_some {body : Segment} : unseal? segment = some body ↔ Seals segment body := by
  have read : unseal? segment = some body ↔ ∃ line before rest,
      segment.reverse.dropWhile Text.allBlank = line :: before ∧
        unsealLine? line = some rest ∧ body = (rest :: before).reverse := by
    rw [unseal?]
    cases segment.reverse.dropWhile Text.allBlank with
    | nil => simp
    | cons line before =>
      simp [@eq_comm _ body]
  have found (line : List Char) (before : Segment) :
      segment.reverse.dropWhile Text.allBlank = line :: before ↔
        ∃ blanks, segment = before.reverse ++ line :: blanks ∧ ¬ Text.Blank line ∧
          ∀ other ∈ blanks, Text.Blank other := by
    have run (blanks : Segment) :=
      @Text.run_eq_iff _ Text.allBlank segment.reverse blanks (line :: before)
    simp only [List.head?_cons, Option.mem_some_iff, forall_eq', ← Bool.not_eq_true,
      Text.allBlank_iff] at run
    constructor
    · intro rest
      obtain ⟨parts, blank, shown⟩ := (run _).1 ⟨rfl, rest⟩
      have parts := congrArg List.reverse parts
      rw [List.reverse_reverse, List.reverse_append, List.reverse_cons, List.append_assoc] at parts
      exact ⟨_, parts, shown, fun other member => blank other (List.mem_reverse.1 member)⟩
    · rintro ⟨blanks, rfl, shown, blank⟩
      refine ((run blanks.reverse).2 ⟨by simp, fun other member => ?_, shown⟩).2
      exact blank other (List.mem_reverse.1 member)
  simp only [read, found, unsealLine?_eq_some, Seals]
  constructor
  · rintro ⟨line, before, rest, ⟨blanks, parts, shown, blank⟩, ⟨ends, apart⟩, rfl⟩
    exact ⟨before.reverse, line, rest, blanks, parts, shown, blank, ends, apart, by simp⟩
  · rintro ⟨before, line, rest, blanks, parts, shown, blank, ends, apart, rfl⟩
    exact ⟨line, before.reverse, rest, ⟨blanks, by simpa using parts, shown, blank⟩, ⟨ends, apart⟩,
      by simp⟩

theorem readSegments_last {keywords : List Keyword} {position : Nat} {last : Segment}
    {spells : List Spell} :
    readSegments keywords position [last] = .ok spells ↔
      ∃ body spell, Seals last body ∧ Tells keywords true body spell ∧ spells = [spell] := by
  simp only [readSegments, ← unseal?_eq_some, ← readSpell_eq_ok]
  cases unseal? last with
  | none => simp
  | some body => simp [Fault.bind_eq_ok, pure, Except.pure, @eq_comm _ spells]

theorem readSegments_cons {keywords : List Keyword} {position : Nat} {segment : Segment}
    {others : List Segment} {spells : List Spell} (follows : others ≠ []) :
    readSegments keywords position (segment :: others) = .ok spells ↔
      (∀ body, ¬ Seals segment body) ∧
        ∃ spell rest, Tells keywords false segment spell ∧
          readSegments keywords (position + 1) others = .ok rest ∧ spells = spell :: rest := by
  have unsealed : (∀ body, ¬ Seals segment body) ↔ unseal? segment = none := by
    simp only [← unseal?_eq_some, Option.eq_none_iff_forall_ne_some, ne_eq]
  rw [readSegments, unsealed]
  · cases unseal? segment with
    | some body => simp
    | none => simp [Fault.bind_eq_ok, readSpell_eq_ok, pure, Except.pure, @eq_comm _ spells]
  · exact follows

-- The position only counts for errors, so the induction over the bound segments is for all of them.
theorem readSegments_eq_ok {keywords : List Keyword} {position : Nat} {bound : List Segment}
    {last : Segment} {spells : List Spell} :
    readSegments keywords position (bound ++ [last]) = .ok spells ↔
      (∀ segment ∈ bound, ∀ body, ¬ Seals segment body) ∧
        ∃ body earlier final, Seals last body ∧ spells = earlier ++ [final] ∧
          List.Forall₂ (Tells keywords false) bound earlier ∧ Tells keywords true body final := by
  induction bound generalizing position spells with
  | nil => simp [readSegments_last, and_left_comm, and_comm]
  | cons segment bound ih =>
    rw [List.cons_append, readSegments_cons (by simp)]
    simp only [ih, List.forall_mem_cons]
    constructor
    · rintro ⟨unsealed, spell, _, tells, ⟨others, body, earlier, final, seals, rfl, told, ends⟩,
        rfl⟩
      exact ⟨⟨unsealed, others⟩, body, spell :: earlier, final, seals, rfl, .cons tells told, ends⟩
    · rintro ⟨⟨unsealed, others⟩, body, _, final, seals, rfl, told, ends⟩
      obtain _ | ⟨tells, told⟩ := told
      exact ⟨unsealed, _, _, tells, ⟨others, body, _, final, seals, rfl, told, ends⟩, rfl⟩

theorem isBlank_iff : segment.isBlank = true ↔ ∀ line ∈ segment, Text.Blank line := by
  simp [Segment.isBlank, Text.allBlank_iff]

-- What stands in a list without repetitions, in its order, is what a filter leaves of it.
theorem eq_filter_of_sublist {α : Type} {chosen all : List α} {keep : α → Bool}
    (within : chosen.Sublist all) (distinct : all.Nodup)
    (agrees : ∀ item ∈ all, item ∈ chosen ↔ keep item = true) : chosen = all.filter keep := by
  induction within with
  | slnil => rfl
  | @cons chosen rest first within ih =>
    obtain ⟨fresh, distinct⟩ := List.nodup_cons.1 distinct
    obtain ⟨first_agrees, agrees⟩ := List.forall_mem_cons.1 agrees
    have dropped : keep first ≠ true := fun kept => fresh (within.subset (first_agrees.2 kept))
    rw [List.filter_cons_of_neg dropped]
    exact ih distinct agrees
  | @cons_cons chosen rest first within ih =>
    obtain ⟨fresh, distinct⟩ := List.nodup_cons.1 distinct
    obtain ⟨first_agrees, agrees⟩ := List.forall_mem_cons.1 agrees
    rw [List.filter_cons_of_pos (first_agrees.1 (by simp)), ← ih distinct]
    intro item member
    have apart : item ≠ first := by
      rintro rfl
      exact fresh member
    simpa [apart] using agrees item member

theorem mentions_iff {script : List Char} {keywords : List Keyword} :
    Mentions script keywords ↔ Keyword.inText script = keywords := by
  have held (keyword : Keyword) :
      Text.occurs keyword.name.toList (script.map Keyword.lower) = true ↔
        keyword.name.toList <:+: script.map Keyword.lower := Text.occurs_iff
  constructor
  · rintro ⟨ordered, agrees⟩
    rw [Keyword.inText, eq_filter_of_sublist ordered (by decide) fun keyword _ => ?_]
    rw [agrees, held]
  · rintro rfl
    refine ⟨List.filter_sublist, fun keyword => ?_⟩
    have listed : keyword ∈ Keyword.table := by cases keyword <;> decide
    simp only [Keyword.inText, List.mem_filter, listed, true_and, held]

theorem read_eq_ok {script : List Char} {spells : List Spell} :
    read script = .ok spells ↔ Means script spells := by
  have accepted : read script = .ok spells ↔
      ¬ Text.Blank script ∧ (∀ segment ∈ segments script, ∃ line ∈ segment, ¬ Text.Blank line) ∧
        readSegments (Keyword.inText script) 1 (segments script) = .ok spells := by
    have inhabited : (segments script).any Segment.isBlank = true ↔
        ¬ ∀ segment ∈ segments script, ∃ line ∈ segment, ¬ Text.Blank line := by
      simp [isBlank_iff]
    by_cases blank : Text.Blank script
    · simp [read, blank, Text.allBlank_iff.2 blank]
    · simp only [read, Text.allBlank_iff, blank, if_false, not_false_eq_true, true_and]
      split
      · next empty => simp [inhabited.1 empty]
      · next full => exact (and_iff_right (not_not.1 (inhabited.not.1 full))).symm
  rw [accepted]
  constructor
  · rintro ⟨shown, inhabited, told⟩
    obtain empty | ⟨bound, last, parts⟩ := List.eq_nil_or_concat' (segments script)
    · exact absurd empty (List.splitOnP_ne_nil _ _)
    rw [parts] at inhabited told
    obtain ⟨unsealed, body, earlier, final, seals, rfl, tells⟩ := readSegments_eq_ok.1 told
    exact ⟨shown, _, bound, last, body, earlier, final, mentions_iff.2 rfl, divides_iff.2 parts,
      inhabited, seals, unsealed, rfl, tells⟩
  · rintro ⟨shown, keywords, bound, last, body, earlier, final, mentions, divides, inhabited, seals,
      unsealed, parts, tells⟩
    rw [segments, divides_iff.1 divides, mentions_iff.1 mentions]
    exact ⟨shown, inhabited,
      readSegments_eq_ok.2 ⟨unsealed, body, earlier, final, seals, parts, tells⟩⟩

/-- The scripts of the grammar are read, each as what it means, and no others; in brackets anything
is a list of parameters, and of one meaning only. -/
theorem ofScript_eq_ok_iff :
    (∀ (script : String) (spells : List Spell),
      Spell.ofScript script = .ok spells ↔ Means script.toList spells) ∧
    ∀ inner, ∃! parameters, Lists inner parameters := by
  refine ⟨fun script spells => read_eq_ok, fun inner => ?_⟩
  simp only [lists_iff]
  exact ⟨_, rfl, fun _ read => read.symm⟩

end Script

end Spellcraft
