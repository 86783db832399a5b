import Mathlib.Data.List.Forall2
import Spellcraft.Proofs.Number.Natural
import Spellcraft.Script.Reader

/-!
What scripts look like and what they mean, said of whole texts: which lines divide a script, where
it is sealed, and what the five lines of a segment say.
-/

set_option autoImplicit false

namespace Spellcraft

def Text.Blank (text : List Char) : Prop :=
  ∀ c ∈ text, Text.isBlank c = true

/-- The trimmed line is the clause's key, a colon and `raw`. -/
def Clause.Starts (clause : Clause) (line raw : List Char) : Prop :=
  Text.trim line = clause.key.toList ++ ':' :: raw

namespace Script

/-- The segments are what stands between the lines that say `bind`. -/
inductive Divides : List (List Char) → List Segment → Prop where
  | last {segment : Segment} (inside : ∀ line ∈ segment, Text.trim line ≠ "bind".toList) :
      Divides segment [segment]
  | bind {segment rest : List (List Char)} {line : List Char} {others : List Segment}
      (inside : ∀ line ∈ segment, Text.trim line ≠ "bind".toList)
      (divider : Text.trim line = "bind".toList) (divides : Divides rest others) :
      Divides (segment ++ line :: rest) (segment :: others)

def Seals (segment body : Segment) : Prop :=
  ∃ before line rest blanks,
    segment = before ++ line :: blanks ∧
    ¬ Text.Blank line ∧ (∀ other ∈ blanks, Text.Blank other) ∧
    Text.trimEnd line = rest ++ "seal".toList ∧
    (∀ c ∈ rest.getLast?, Text.isBlank c = true) ∧
    body = before ++ [rest]

def Gives (segment : Segment) (clause : Clause) (value : List Char) : Prop :=
  ∃ before line after raw,
    segment = before ++ line :: after ∧
    clause.Starts line raw ∧ value = Text.trim raw ∧
    ∀ other ∈ before ++ after, ∀ raw, ¬ clause.Starts other raw

/-- A key and a value around the first colon, neither of them blank. -/
def Pairs (piece : List Char) (key : String) (value : ParameterValue) : Prop :=
  ∃ left right,
    piece = left ++ ':' :: right ∧ ':' ∉ left ∧
    Text.trim left ≠ [] ∧ Text.trim right ≠ [] ∧
    key = String.ofList (Text.trim left) ∧ value = ParameterValue.ofText (Text.trim right)

def Lists (inner : List Char) (parameters : Parameters) : Prop :=
  ∀ key value, parameters.find? key = some value ↔
    ∃ before piece after,
      inner.splitOn ',' = before ++ piece :: after ∧ Pairs piece key value ∧
      ∀ other ∈ after, ∀ value, ¬ Pairs other key value

def Details (rest : List Char) (parameters : Parameters) : Prop :=
  Text.trim rest = [] ∧ parameters = .empty ∨
    ∃ inner, Text.trim rest = '(' :: inner ++ [')'] ∧ Lists inner parameters

def Anchors (value : List Char) (anchor : Anchor) : Prop :=
  ∃ rest,
    value = anchor.kind.name.toList ++ rest ∧ (∀ c ∈ rest.head?, c.isAlpha = false) ∧
    Details rest anchor.parameters

/-- Every clause is given once, in its form. -/
structure Tells (keywords : List Keyword) (isLast : Bool) (segment : Segment) (spell : Spell) :
    Prop where
  focus : Gives segment .focus spell.focus.name.toList
  anchor : ∃ value, Gives segment .anchor value ∧ Anchors value spell.anchor
  shift : ∃ digits, Gives segment .shift (spell.shift.direction.sign :: digits ++ ['%']) ∧
    Number.Writes digits spell.shift.amount.toNat
  cost : ∃ digits, Gives segment .cost (digits ++ ['E']) ∧
    Number.Writes digits spell.declaredCost.toNat
  intent : ∃ inner rest, Gives segment .intent ('"' :: inner ++ '"' :: rest) ∧ '"' ∉ inner ∧
    Text.trim inner ≠ [] ∧ spell.intent = String.ofList (Text.trim inner)
  bound : spell.isBound = !isLast
  sealed : spell.isSealed = isLast
  privileged : spell.isPrivileged = !keywords.isEmpty
  keywords : spell.keywords = keywords

/-- Each keyword in the order of the table, whatever the case of its letters. -/
def Mentions (script : List Char) (keywords : List Keyword) : Prop :=
  keywords.Sublist Keyword.table ∧
    ∀ keyword, keyword ∈ keywords ↔ keyword.name.toList <:+: script.map Keyword.lower

/-- One spell for each segment, the last of which alone is sealed. -/
def Means (script : List Char) (spells : List Spell) : Prop :=
  ¬ Text.Blank script ∧
  ∃ keywords bound last body earlier final,
    Mentions script keywords ∧ Divides (Text.lines script) (bound ++ [last]) ∧
    (∀ segment ∈ bound ++ [last], ∃ line ∈ segment, ¬ Text.Blank line) ∧
    Seals last body ∧ (∀ segment ∈ bound, ∀ body, ¬ Seals segment body) ∧
    spells = earlier ++ [final] ∧
    List.Forall₂ (Tells keywords false) bound earlier ∧
    Tells keywords true body final

end Script

end Spellcraft
