import Spellcraft.Json.Reader
import Spellcraft.Json.Writer

set_option autoImplicit false

namespace Spellcraft.Json

structure Layout where
  gap : Nat → List Char
  aside : List Char
  gap_space : ∀ level, ∀ c ∈ gap level, isSpace c = true
  aside_space : ∀ c ∈ aside, isSpace c = true

namespace Layout

mutual

def text (layout : Layout) (level : Nat) : Json → List Char
  | .list [] => ['[', ']']
  | .record [] => ['\x7b', '\x7d']
  | .list items => '[' :: layout.items (level + 1) items ++ layout.gap level ++ [']']
  | .record fields => '\x7b' :: layout.fields (level + 1) fields ++ layout.gap level ++ ['\x7d']
  | leaf => leafText leaf

def items (layout : Layout) (level : Nat) : List Json → List Char
  | [] => []
  | [item] => layout.gap level ++ layout.text level item
  | item :: others =>
    layout.gap level ++ layout.text level item ++ ',' :: layout.items level others

def fields (layout : Layout) (level : Nat) : List (Option String × Json) → List Char
  | [] => []
  | [(name, value)] =>
    layout.gap level ++ nameText name ++ ':' :: layout.aside ++ layout.text level value
  | (name, value) :: others =>
    layout.gap level ++ nameText name ++ ':' :: layout.aside ++ layout.text level value ++
      ',' :: layout.fields level others

end

variable (layout : Layout) (level : Nat)

theorem text_list (item : Json) (others : List Json) :
    layout.text level (.list (item :: others)) =
      '[' :: layout.items (level + 1) (item :: others) ++ layout.gap level ++ [']'] := rfl

theorem text_record (field : Option String × Json) (others : List (Option String × Json)) :
    layout.text level (.record (field :: others)) =
      '\x7b' :: layout.fields (level + 1) (field :: others) ++ layout.gap level ++ ['\x7d'] := rfl

theorem items_cons (item second : Json) (others : List Json) :
    layout.items level (item :: second :: others) =
      layout.gap level ++ layout.text level item ++ ',' :: layout.items level (second :: others) :=
  rfl

theorem fields_cons (name : Option String) (value : Json) (second : Option String × Json)
    (others : List (Option String × Json)) :
    layout.fields level ((name, value) :: second :: others) =
      layout.gap level ++ nameText name ++ ':' :: layout.aside ++ layout.text level value ++
        ',' :: layout.fields level (second :: others) := rfl

def dense : Layout where
  gap _ := []
  aside := []
  gap_space := by simp
  aside_space := by simp

def indented : Layout where
  gap := newLine
  aside := [' ']
  gap_space level := by simp [newLine, isSpace]
  aside_space := by simp [isSpace]

mutual

theorem dense_text (level : Nat) : (json : Json) → dense.text level json = json.compact
  | .null | .bool _ | .number _ | .text _ => rfl
  | .list [] | .record [] => rfl
  | .list (item :: others) => by
    rw [text_list, dense_items (level + 1) (item :: others), compact]
    simp [dense]
  | .record (field :: others) => by
    rw [text_record, dense_fields (level + 1) (field :: others), compact]
    simp [dense]

theorem dense_items (level : Nat) :
    (items : List Json) → dense.items level items = compactItems items
  | [] => rfl
  | [item] => dense_text level item
  | item :: second :: others => by
    rw [items_cons, dense_text level item, dense_items level (second :: others)]
    rfl

theorem dense_fields (level : Nat) :
    (fields : List (Option String × Json)) → dense.fields level fields = compactFields fields
  | [] => rfl
  | [(name, value)] => by
    rw [compactFields, ← dense_text level value]
    simp [fields, dense]
  | (name, value) :: second :: others => by
    rw [fields_cons, dense_text level value, dense_fields level (second :: others)]
    simp [dense, compactFields]

end

mutual

theorem indented_text (level : Nat) : (json : Json) → indented.text level json = json.pretty level
  | .null | .bool _ | .number _ | .text _ => rfl
  | .list [] | .record [] => rfl
  | .list (item :: others) => by
    rw [text_list, indented_items (level + 1) (item :: others)]
    rfl
  | .record (field :: others) => by
    rw [text_record, indented_fields (level + 1) (field :: others)]
    rfl

theorem indented_items (level : Nat) :
    (items : List Json) → indented.items level items = prettyItems level items
  | [] => rfl
  | [item] => congrArg (newLine level ++ ·) (indented_text level item)
  | item :: second :: others => by
    rw [items_cons, indented_text level item, indented_items level (second :: others)]
    rfl

theorem indented_fields (level : Nat) :
    (fields : List (Option String × Json)) →
      indented.fields level fields = prettyFields level fields
  | [] => rfl
  | [(name, value)] => by
    rw [prettyFields, ← indented_text level value]
    simp [fields, indented]
  | (name, value) :: second :: others => by
    rw [fields_cons, indented_text level value, indented_fields level (second :: others)]
    simp [indented, prettyFields]

end

end Layout

end Spellcraft.Json
