import Spellcraft.Proofs.Json.Layout
import Spellcraft.Proofs.Json.Rereading
import Spellcraft.Proofs.Json.Text

set_option autoImplicit false

namespace Spellcraft.Json

def Numeral.Legible : Numeral → Prop
  | natural _ => True
  | negative value => value < 0
  | real value => Number.isFinite value = true

mutual

def Legible : Json → Prop
  | .null | .bool _ => True
  | .number value => ∃ numeral, value = some numeral ∧ numeral.Legible
  | .text value => value.isSome = true
  | .list items => LegibleItems items
  | .record fields => LegibleFields fields

def LegibleItems : List Json → Prop
  | [] => True
  | item :: others => Legible item ∧ LegibleItems others

def LegibleFields : List (Option String × Json) → Prop
  | [] => True
  | (name, value) :: others => name.isSome = true ∧ Legible value ∧ LegibleFields others

end

@[simp] theorem legible_null : Legible .null := trivial

@[simp] theorem legible_string (value : String) : (string value).Legible := rfl

@[simp] theorem legible_natural (value : UInt64) : (natural value).Legible :=
  ⟨_, rfl, trivial⟩

@[simp] theorem legible_natural32 (value : UInt32) : (natural32 value).Legible :=
  legible_natural _

@[simp] theorem legible_integer (value : Int64) : (integer value).Legible := by
  rw [integer]
  split
  · next below => exact ⟨_, rfl, below⟩
  · exact legible_natural _

@[simp] theorem legible_real {value : Float} :
    (real value).Legible ↔ Number.isFinite value = true := by
  simp [real, Legible, Numeral.Legible]

@[simp] theorem legible_list {items : List Json} :
    (Json.list items).Legible ↔ ∀ item ∈ items, item.Legible := by
  rw [Legible]
  induction items with
  | nil => simp [LegibleItems]
  | cons item others ih => simp [LegibleItems, ih]

@[simp] theorem legible_object {fields : List (String × Json)} :
    (object fields).Legible ↔ ∀ field ∈ fields, field.2.Legible := by
  rw [object, Legible]
  induction fields with
  | nil => simp [LegibleFields]
  | cons field others ih => simp [LegibleFields, ih]

def Numeral.reread : Numeral → Numeral
  | real value => real (readAs value)
  | numeral => numeral

mutual

def reread : Json → Json
  | .number value => .number (value.map Numeral.reread)
  | .list items => .list (rereadItems items)
  | .record fields => .record (rereadFields fields)
  | leaf => leaf

def rereadItems : List Json → List Json
  | [] => []
  | item :: others => reread item :: rereadItems others

def rereadFields : List (Option String × Json) → List (Option String × Json)
  | [] => []
  | (name, value) :: others => (name, reread value) :: rereadFields others

end

@[simp] theorem reread_null : reread .null = .null := rfl

@[simp] theorem reread_string (value : String) : (string value).reread = string value := rfl

@[simp] theorem reread_natural (value : UInt64) : (natural value).reread = natural value := rfl

@[simp] theorem reread_natural32 (value : UInt32) : (natural32 value).reread = natural32 value :=
  rfl

@[simp] theorem reread_integer (value : Int64) : (integer value).reread = integer value := by
  rw [integer]
  split <;> rfl

@[simp] theorem reread_real (value : Float) : (real value).reread = real (readAs value) := rfl

@[simp] theorem reread_list (items : List Json) :
    (Json.list items).reread = .list (items.map reread) := by
  rw [reread]
  congr 1
  induction items with
  | nil => rfl
  | cons item others ih => rw [rereadItems, ih, List.map_cons]

@[simp] theorem reread_record (fields : List (Option String × Json)) :
    (record fields).reread = .record (fields.map (Prod.map id reread)) := by
  rw [reread]
  congr 1
  induction fields with
  | nil => rfl
  | cons field others ih => rw [rereadFields, ih, List.map_cons, Prod.map, id]

theorem reread_object (fields : List (String × Json)) :
    (object fields).reread = object (fields.map (Prod.map id reread)) := by
  simp [object]

theorem skipSpace_append {space input : List Char} (blank : ∀ c ∈ space, isSpace c = true) :
    skipSpace (space ++ input) = skipSpace input :=
  List.dropWhile_append_of_pos blank

theorem readValue_space {space input : List Char} (blank : ∀ c ∈ space, isSpace c = true)
    (bound : Nat) : readValue bound (space ++ input) = readValue bound input := by
  cases bound with
  | zero => rfl
  | succ bound => rw [readValue, readValue, skipSpace_append blank]

theorem readFields_space {space input : List Char} (blank : ∀ c ∈ space, isSpace c = true)
    (bound : Nat) : readFields bound (space ++ input) = readFields bound input := by
  cases bound with
  | zero => rfl
  | succ bound => rw [readFields, readFields, skipSpace_append blank]

theorem Numeral.Legible.reads {numeral : Numeral} (legible : numeral.Legible) :
    readNumber numeral.text = some (some numeral.reread, []) := by
  cases numeral with
  | natural value => exact readNumber_natural value
  | negative value => exact readNumber_negative legible
  | real value =>
    obtain ⟨text, written, read, -⟩ := readAs_spec legible
    rwa [Numeral.text, written]

theorem Numeral.Legible.first {numeral : Numeral} (legible : numeral.Legible) :
    ∃ c rest, numeral.text = c :: rest ∧ Number.isMark c = true := by
  have read : (readNumber numeral.text).isSome = true := by simp [legible.reads]
  obtain ⟨c, rest, same, rfl | digit⟩ := readNumber_first read
  · exact ⟨'-', rest, same, by decide⟩
  · exact ⟨c, rest, same, Number.isMark_of_isDigit digit⟩

-- A number read alone is read within a document, since nothing that can follow goes on with it.
theorem readValue_numeral {numeral : Numeral} (legible : numeral.Legible) {rest : List Char}
    (ends : Ends rest) (bound : Nat) :
    readValue (bound + 1) (numeral.text ++ rest) = some (.number (some numeral.reread), rest) := by
  have read := readNumber_append legible.reads ends
  obtain ⟨c, others, same, mark⟩ := legible.first
  rw [same] at read ⊢
  rw [List.cons_append] at read ⊢
  rw [readValue_number mark, read]
  rfl

theorem quote_append (text : String) (rest : List Char) :
    quote text ++ rest = '"' :: (text.toList.flatMap escape ++ '"' :: rest) := by
  simp [quote]

theorem readValue_quote (text : String) (rest : List Char) (bound : Nat) :
    readValue (bound + 1) (quote text ++ rest) = some (.text (some text), rest) := by
  have opened (inner : List Char) : readValue (bound + 1) ('"' :: inner) =
      (readText inner).map fun read => (.text read.1, read.2) := rfl
  rw [quote_append, opened, readText_quoted]
  rfl

theorem readValue_null (rest : List Char) (bound : Nat) :
    readValue (bound + 1) (nullText ++ rest) = some (.null, rest) := rfl

theorem readValue_bool (value : Bool) (rest : List Char) (bound : Nat) :
    readValue (bound + 1) (leafText (.bool value) ++ rest) = some (.bool value, rest) := by
  cases value <;> rfl

section Brackets

variable {bound : Nat} {input rest left : List Char} {item : Json} {items : List Json}
  {name : String} {value : Json} {fields : List (Option String × Json)}

theorem readItems_last (read : readValue bound input = some (item, rest))
    (close : skipSpace rest = ']' :: left) : readItems (bound + 1) input = some ([item], left) := by
  simp [readItems, read, close]

theorem readItems_more (read : readValue bound input = some (item, rest))
    (comma : skipSpace rest = ',' :: left) {after : List Char}
    (others : readItems bound left = some (items, after)) :
    readItems (bound + 1) input = some (item :: items, after) := by
  simp [readItems, read, comma, others]

theorem readFields_last (read : readValue bound input = some (value, rest))
    (close : skipSpace rest = '\x7d' :: left) :
    readFields (bound + 1) (quote name ++ ':' :: input) = some ([(some name, value)], left) := by
  rw [quote_append, readFields, skipSpace_cons (by decide)]
  simp [readText_quoted, skipSpace_cons (by decide : isSpace ':' = false), read, close]

theorem readFields_more (read : readValue bound input = some (value, rest))
    (comma : skipSpace rest = ',' :: left) {after : List Char}
    (others : readFields bound left = some (fields, after)) :
    readFields (bound + 1) (quote name ++ ':' :: input) =
      some ((some name, value) :: fields, after) := by
  rw [quote_append, readFields, skipSpace_cons (by decide)]
  simp [readText_quoted, skipSpace_cons (by decide : isSpace ':' = false), read, comma, others]

-- Items that are read do not start with the closing bracket, which would be read as an empty list.
theorem readValue_list (read : readItems bound input = some (items, left)) :
    readValue (bound + 1) ('[' :: input) = some (.list items, left) := by
  simp only [readValue, skipSpace_cons (by decide : isSpace '[' = false), read, Option.map_some]
  split
  · next closed =>
    have unread (bound : Nat) : readValue bound input = none := by
      cases bound with
      | zero => rfl
      | succ bound =>
        rw [readValue, closed]
        rfl
    cases bound with
    | zero => cases read
    | succ bound => simp [readItems, unread] at read
  · rfl

theorem readValue_record (read : readFields bound input = some (fields, left)) :
    readValue (bound + 1) ('\x7b' :: input) = some (.record fields, left) := by
  simp only [readValue, skipSpace_cons (by decide : isSpace '\x7b' = false), read, Option.map_some]
  split
  · next closed =>
    cases bound with
    | zero => cases read
    | succ bound => simp [readFields, closed] at read
  · rfl

end Brackets

variable (layout : Layout)

theorem skipSpace_gap (level : Nat) {c : Char} (shown : isSpace c = false) (rest : List Char) :
    skipSpace (layout.gap level ++ c :: rest) = c :: rest := by
  rw [skipSpace_append (layout.gap_space level), skipSpace_cons shown]

theorem ends_cons {c : Char} (closing : closes c = true) (rest : List Char) : Ends (c :: rest) := by
  simpa [Ends] using closing

theorem ends_gap (level : Nat) {c : Char} (closing : closes c = true) (rest : List Char) :
    Ends (layout.gap level ++ c :: rest) := by
  intro first member
  cases same : layout.gap level with
  | nil =>
    rw [same] at member
    obtain rfl : c = first := by simpa using member
    exact closing
  | cons space others =>
    rw [same] at member
    obtain rfl : space = first := by simpa using member
    have blank := layout.gap_space level space (by simp [same])
    simp [closes, blank]

-- The bound is a matter of length: a bracket costs two steps of it and an item one.
mutual

theorem readValue_text (level : Nat) : (json : Json) → json.Legible → ∀ {bound rest},
    (layout.text level json).length < bound → Ends rest →
      readValue bound (layout.text level json ++ rest) = some (json.reread, rest)
  | json, legible, 0, rest, enough, ends => absurd enough (Nat.not_lt_zero _)
  | .null, _, bound + 1, rest, _, _ => readValue_null rest bound
  | .bool value, _, bound + 1, rest, _, _ => readValue_bool value rest bound
  | .number value, legible, bound + 1, rest, _, ends => by
    obtain ⟨numeral, rfl, legible⟩ := legible
    exact readValue_numeral legible ends bound
  | .text value, legible, bound + 1, rest, _, _ => by
    obtain ⟨text, rfl⟩ := Option.isSome_iff_exists.1 legible
    exact readValue_quote text rest bound
  | .list [], _, bound + 1, rest, _, _ => rfl
  | .record [], _, bound + 1, rest, _, _ => rfl
  | .list (item :: others), legible, bound + 1, rest, enough, _ => by
    simp only [Layout.text_list, List.length_append, List.length_cons, List.length_nil] at enough
    have read : readItems bound (layout.items (level + 1) (item :: others) ++ layout.gap level ++
        ']' :: rest) = some ((item :: others).map reread, rest) :=
      readItems_text (level + 1) (item :: others) (by simp) legible (by omega)
    simpa [Layout.text_list] using readValue_list read
  | .record (field :: others), legible, bound + 1, rest, enough, _ => by
    simp only [Layout.text_record, List.length_append, List.length_cons, List.length_nil] at enough
    have read : readFields bound (layout.fields (level + 1) (field :: others) ++ layout.gap level ++
        '\x7d' :: rest) = some ((field :: others).map (Prod.map id reread), rest) :=
      readFields_text (level + 1) (field :: others) (by simp) legible (by omega)
    simpa [Layout.text_record] using readValue_record read

theorem readItems_text (level : Nat) : (items : List Json) → items ≠ [] → LegibleItems items →
    ∀ {bound outer rest}, (layout.items level items).length + 1 < bound →
      readItems bound (layout.items level items ++ layout.gap outer ++ ']' :: rest) =
        some (items.map reread, rest)
  | [], nonempty, _, _, _, _, _ => absurd rfl nonempty
  | items, _, _, 0, _, _, enough => absurd enough (Nat.not_lt_zero _)
  | [item], _, legible, bound + 1, outer, rest, enough => by
    simp only [Layout.items, List.length_append] at enough
    have read := readValue_text level item legible.1 (by omega : _ < bound)
      (ends_gap layout outer (by decide : closes ']' = true) rest)
    rw [← readValue_space (layout.gap_space level)] at read
    simpa [Layout.items] using readItems_last read (skipSpace_gap layout outer (by decide) rest)
  | item :: second :: others, _, legible, bound + 1, outer, rest, enough => by
    simp only [Layout.items_cons, List.length_append, List.length_cons] at enough
    have following : readItems bound (layout.items level (second :: others) ++ layout.gap outer ++
        ']' :: rest) = some ((second :: others).map reread, rest) :=
      readItems_text level (second :: others) (by simp) legible.2 (by omega)
    have read (left : List Char) : readValue bound (layout.gap level ++
        (layout.text level item ++ ',' :: left)) = some (item.reread, ',' :: left) := by
      rw [readValue_space (layout.gap_space level)]
      exact readValue_text level item legible.1 (by omega) (ends_cons (by decide) left)
    simpa [Layout.items_cons] using readItems_more (read _) (skipSpace_cons (by decide)) following

theorem readFields_text (level : Nat) : (fields : List (Option String × Json)) → fields ≠ [] →
    LegibleFields fields → ∀ {bound outer rest}, (layout.fields level fields).length + 1 < bound →
      readFields bound (layout.fields level fields ++ layout.gap outer ++ '\x7d' :: rest) =
        some (fields.map (Prod.map id reread), rest)
  | [], nonempty, _, _, _, _, _ => absurd rfl nonempty
  | fields, _, _, 0, _, _, enough => absurd enough (Nat.not_lt_zero _)
  | [(name, value)], _, legible, bound + 1, outer, rest, enough => by
    obtain ⟨named, legible, -⟩ := legible
    obtain ⟨name, rfl⟩ := Option.isSome_iff_exists.1 named
    simp only [Layout.fields, List.length_append, List.length_cons] at enough
    have read := readValue_text level value legible (by omega : _ < bound)
      (ends_gap layout outer (by decide : closes '\x7d' = true) rest)
    rw [← readValue_space layout.aside_space] at read
    have last := @readFields_last _ _ _ _ name _ read (skipSpace_gap layout outer (by decide) rest)
    rw [← readFields_space (layout.gap_space level)] at last
    simpa [Layout.fields, nameText] using last
  | (name, value) :: second :: others, _, legible, bound + 1, outer, rest, enough => by
    obtain ⟨named, legible, remaining⟩ := legible
    obtain ⟨name, rfl⟩ := Option.isSome_iff_exists.1 named
    simp only [Layout.fields_cons, List.length_append, List.length_cons] at enough
    have following : readFields bound (layout.fields level (second :: others) ++ layout.gap outer ++
        '\x7d' :: rest) = some ((second :: others).map (Prod.map id reread), rest) :=
      readFields_text level (second :: others) (by simp) remaining (by omega)
    have read (left : List Char) : readValue bound (layout.aside ++
        (layout.text level value ++ ',' :: left)) = some (value.reread, ',' :: left) := by
      rw [readValue_space layout.aside_space]
      exact readValue_text level value legible (by omega) (ends_cons (by decide) left)
    have more := @readFields_more _ _ _ _ name _ _ (read _) (skipSpace_cons (by decide)) _ following
    rw [← readFields_space (layout.gap_space level)] at more
    simpa [Layout.fields_cons, nameText] using more

end

theorem parse?_text {json : Json} (legible : json.Legible) :
    parse? (layout.text 0 json) = some json.reread := by
  have read : readValue (2 * (layout.text 0 json).length + 2) (layout.text 0 json ++ []) =
      some (json.reread, []) := readValue_text layout 0 json legible (by omega) (by simp [Ends])
  rw [List.append_nil] at read
  exact parse?_eq_some.2 ⟨[], read, rfl⟩

theorem parse?_compact {json : Json} (legible : json.Legible) :
    parse? json.compact = some json.reread := by
  rw [← Layout.dense_text 0]
  exact parse?_text _ legible

theorem parse?_pretty {json : Json} (legible : json.Legible) :
    parse? (json.pretty 0) = some json.reread := by
  rw [← Layout.indented_text 0]
  exact parse?_text _ legible

end Spellcraft.Json
