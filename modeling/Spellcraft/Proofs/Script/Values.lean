import Mathlib.Data.String.Basic
import Spellcraft.Proofs.Script.Grammar
import Spellcraft.Proofs.Spell
import Spellcraft.Proofs.Text

set_option autoImplicit false

namespace Spellcraft

namespace Script

variable {value : List Char}

theorem readFocus_eq_ok {focus : Focus} :
    readFocus value = .ok focus ↔ value = focus.name.toList := by
  have read : readFocus value = .ok focus ↔ Focus.ofName? (String.ofList value) = some focus := by
    rw [readFocus]
    cases Focus.ofName? (String.ofList value) <;> simp
  rw [read, Focus.ofName?_eq_some, String.ofList_eq]

theorem shift?_eq_some {shift : Shift} :
    shift? value = some shift ↔
      ∃ digits, value = shift.direction.sign :: digits ++ ['%'] ∧
        Number.Writes digits shift.amount.toNat := by
  obtain ⟨direction, amount⟩ := shift
  cases value with
  | nil => simp [shift?]
  | cons sign rest =>
    have read : shift? (sign :: rest) = some ⟨direction, amount⟩ ↔
        Direction.ofSign? sign = some direction ∧
          (Text.before? ['%'] rest).bind Number.word32? = some amount := by
      rw [shift?]
      cases Direction.ofSign? sign <;>
        cases (Text.before? ['%'] rest).bind Number.word32? <;> simp
    simp only [read, Direction.ofSign?_eq_some, Option.bind_eq_some_iff, Text.before?_eq_some,
      Number.word32?_eq_some, List.cons_append, List.cons.injEq]
    constructor
    · rintro ⟨rfl, digits, rfl, writes⟩
      exact ⟨digits, ⟨rfl, rfl⟩, writes⟩
    · rintro ⟨digits, ⟨rfl, rfl⟩, writes⟩
      exact ⟨rfl, digits, rfl, writes⟩

theorem readShift_eq_ok {shift : Shift} :
    readShift value = .ok shift ↔
      ∃ digits, value = shift.direction.sign :: digits ++ ['%'] ∧
        Number.Writes digits shift.amount.toNat := by
  rw [← shift?_eq_some, readShift]
  cases shift? value <;> simp

theorem readCost_eq_ok {cost : UInt32} :
    readCost value = .ok cost ↔
      ∃ digits, value = digits ++ ['E'] ∧ Number.Writes digits cost.toNat := by
  have read : readCost value = .ok cost ↔
      (Text.before? ['E'] value).bind Number.word32? = some cost := by
    rw [readCost]
    cases (Text.before? ['E'] value).bind Number.word32? <;> simp
  simp only [read, Option.bind_eq_some_iff, Text.before?_eq_some, Number.word32?_eq_some]

theorem quoted?_eq_some {inner : List Char} :
    quoted? value = some inner ↔
      ∃ rest, value = '"' :: inner ++ '"' :: rest ∧ '"' ∉ inner := by
  simp only [quoted?, Option.map_eq_some_iff, Option.bind_eq_some_iff, Text.after?_eq_some,
    Prod.exists, Text.cut?_eq_some, List.cons_append]
  constructor
  · rintro ⟨_, rest, ⟨_, rfl, rfl, absent⟩, rfl⟩
    exact ⟨rest, rfl, absent⟩
  · rintro ⟨rest, rfl, absent⟩
    exact ⟨inner, rest, ⟨_, rfl, rfl, absent⟩, rfl⟩

theorem readIntent_eq_ok {intent : String} :
    readIntent value = .ok intent ↔
      ∃ inner rest, value = '"' :: inner ++ '"' :: rest ∧ '"' ∉ inner ∧
        Text.trim inner ≠ [] ∧ intent = String.ofList (Text.trim inner) := by
  have read : readIntent value = .ok intent ↔ ∃ inner, quoted? value = some inner ∧
      Text.trim inner ≠ [] ∧ intent = String.ofList (Text.trim inner) := by
    rw [readIntent]
    cases quoted? value with
    | none => simp
    | some inner =>
      by_cases blank : Text.trim inner = []
      · simp [blank]
      · simp [blank, @eq_comm _ intent]
  simp only [read, quoted?_eq_some]
  constructor
  · rintro ⟨inner, ⟨rest, parts, absent⟩, told⟩
    exact ⟨inner, rest, parts, absent, told⟩
  · rintro ⟨inner, rest, parts, absent, told⟩
    exact ⟨inner, ⟨rest, parts, absent⟩, told⟩

theorem parameter?_eq_some {piece : List Char} {key : String} {value : ParameterValue} :
    parameter? piece = some (key, value) ↔ Pairs piece key value := by
  have read : parameter? piece = some (key, value) ↔
      ∃ left right, Text.cut? ':' piece = some (left, right) ∧
        Text.trim left ≠ [] ∧ Text.trim right ≠ [] ∧
        key = String.ofList (Text.trim left) ∧ value = ParameterValue.ofText (Text.trim right) := by
    rw [parameter?]
    cases Text.cut? ':' piece with
    | none => simp
    | some parts =>
      obtain ⟨left, right⟩ := parts
      by_cases blank : Text.trim left = [] ∨ Text.trim right = []
      · rcases blank with blank | blank <;> simp [blank]
      · obtain ⟨named, valued⟩ := not_or.1 blank
        simp [named, valued, @eq_comm _ key, @eq_comm _ value]
  simp only [read, Text.cut?_eq_some, Pairs, and_assoc]

-- Later pairs replace earlier ones, so a key is looked up from the back.
theorem lookup_last {pieces : List (List Char)} {key : String} {value : ParameterValue} :
    (pieces.filterMap parameter?).reverse.lookup key = some value ↔
      ∃ before piece after, pieces = before ++ piece :: after ∧ Pairs piece key value ∧
        ∀ other ∈ after, ∀ value, ¬ Pairs other key value := by
  simp only [← List.filterMap_reverse, List.lookup_eq_some_iff, ← parameter?_eq_some]
  constructor
  · rintro ⟨later, earlier, entries, apart⟩
    obtain ⟨behind, others, parts, rfl, found⟩ := List.filterMap_eq_append_iff.1 entries
    obtain ⟨skipped, piece, ahead, rfl, unread, read, -⟩ := List.filterMap_eq_cons_iff.1 found
    refine ⟨ahead.reverse, piece, (behind ++ skipped).reverse, ?_, read, ?_⟩
    · rw [← List.reverse_inj, parts]
      simp
    · intro other member value named
      -- A piece behind it was either read as a pair with another key or is no pair at all.
      rcases List.mem_append.1 (List.mem_reverse.1 member) with before | between
      · have distinct := apart _ (List.mem_filterMap.2 ⟨other, before, named⟩)
        simp at distinct
      · rw [unread other between] at named
        cases named
  · rintro ⟨before, piece, after, rfl, read, unnamed⟩
    refine ⟨after.reverse.filterMap parameter?, before.reverse.filterMap parameter?, ?_, ?_⟩
    · simp [read]
    · intro entry member
      obtain ⟨other, later, named⟩ := List.mem_filterMap.1 member
      have distinct : key ≠ entry.1 := by
        rintro rfl
        exact unnamed other (List.mem_reverse.1 later) entry.2 named
      simpa using distinct

-- Every list has one reading, so none is refused.
theorem lists_iff {inner : List Char} {parameters : Parameters} :
    Lists inner parameters ↔ readParameters inner = parameters := by
  have reads : Lists inner (readParameters inner) := by
    intro key value
    rw [readParameters, Parameters.find?_ofList, lookup_last]
  constructor
  · intro lists
    refine Parameters.ext_find fun key value => ?_
    rw [reads key value, lists key value]
  · rintro rfl
    exact reads

theorem AnchorKind.name_letters (kind : AnchorKind) :
    kind.name.toList ≠ [] ∧ ∀ c ∈ kind.name.toList, c.isAlpha = true := by
  rw [← List.all_eq_true]
  cases kind <;> decide

theorem parenthesised?_eq_some {text inner : List Char} :
    parenthesised? text = some inner ↔ text = '(' :: inner ++ [')'] := by
  simp only [parenthesised?, Option.bind_eq_some_iff, Text.after?_eq_some, Text.before?_eq_some]
  constructor
  · rintro ⟨rest, rfl, rfl⟩
    rfl
  · rintro rfl
    exact ⟨inner ++ [')'], rfl, rfl⟩

theorem readDetails_eq_ok {rest : List Char} {found : AnchorKind} {anchor : Anchor}
    {error : ScriptError} :
    (if (Text.trim rest).isEmpty then .ok (Anchor.ofKind found)
      else match parenthesised? (Text.trim rest) with
        | none => .error error
        | some inner => .ok ⟨found, readParameters inner⟩) = Except.ok anchor ↔
      found = anchor.kind ∧ Details rest anchor.parameters := by
  obtain ⟨kind, parameters⟩ := anchor
  by_cases bare : Text.trim rest = []
  · simp [Details, bare, Anchor.ofKind, @eq_comm _ Parameters.empty]
  · simp only [Details, bare, List.isEmpty_iff, if_false, false_and, false_or,
      ← parenthesised?_eq_some, lists_iff]
    cases parenthesised? (Text.trim rest) <;> simp

-- The letters at the front are the longest run of them, so the name cannot be cut short.
theorem anchors_iff {anchor : Anchor} :
    Anchors value anchor ↔
      AnchorKind.ofName? (String.ofList (value.takeWhile isAsciiLetter)) = some anchor.kind ∧
        Details (value.dropWhile isAsciiLetter) anchor.parameters := by
  have name_run (rest : List Char) :
      (value = anchor.kind.name.toList ++ rest ∧ ∀ c ∈ rest.head?, c.isAlpha = false) ↔
        value.takeWhile isAsciiLetter = anchor.kind.name.toList ∧
          value.dropWhile isAsciiLetter = rest := by
    rw [Text.run_eq_iff]
    exact and_congr_right fun _ => (and_iff_right (AnchorKind.name_letters _).2).symm
  simp only [Anchors, ← and_assoc, name_run, AnchorKind.ofName?_eq_some, String.ofList_eq]
  constructor
  · rintro ⟨rest, ⟨named, rfl⟩, details⟩
    exact ⟨named, details⟩
  · rintro ⟨named, details⟩
    exact ⟨_, ⟨named, rfl⟩, details⟩

theorem readAnchor_eq_ok {anchor : Anchor} :
    readAnchor value = .ok anchor ↔ Anchors value anchor := by
  rw [anchors_iff, readAnchor]
  by_cases unnamed : value.takeWhile isAsciiLetter = []
  -- No kind has an empty name, so the form refuses what the reader refuses here.
  · have absent : AnchorKind.ofName? (String.ofList []) ≠ some anchor.kind := by
      rw [Ne, AnchorKind.ofName?_eq_some, String.ofList_eq]
      exact (AnchorKind.name_letters anchor.kind).1.symm
    simp [unnamed, absent]
  · have named : (value.takeWhile isAsciiLetter).isEmpty = false := by simpa using unnamed
    simp only [named, Bool.false_eq_true, if_false]
    cases AnchorKind.ofName? (String.ofList (value.takeWhile isAsciiLetter)) with
    | none => simp
    | some found =>
      rw [Option.some.injEq]
      exact readDetails_eq_ok

end Script

end Spellcraft
