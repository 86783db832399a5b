import Spellcraft.Number.Literal
import Spellcraft.Spell.Focus
import Spellcraft.Text.Line

set_option autoImplicit false

namespace Spellcraft

inductive ParameterValue where
  | number (value : Float)
  | text (value : String)
deriving Repr, DecidableEq

namespace ParameterValue

-- A finite number if the text is one, the trimmed text otherwise.
def ofText (raw : List Char) : ParameterValue :=
  let trimmed := Text.trim raw
  match Number.literal? trimmed with
  | some value => if Number.isFinite value then number value else text (String.ofList trimmed)
  | none => text (String.ofList trimmed)

def number? : ParameterValue → Option Float
  | number value => some value
  | text _ => none

def display : ParameterValue → String
  | number value => String.ofList (Number.plain value)
  | text value => value

end ParameterValue

abbrev Parameter := String × ParameterValue

structure Parameters where
  entries : List Parameter
  ascending : entries.Pairwise fun left right => left.1 < right.1
deriving DecidableEq

namespace Parameters

def empty : Parameters :=
  ⟨[], .nil⟩

def place (key : String) (value : ParameterValue) : List Parameter → List Parameter
  | [] => [(key, value)]
  | entry :: rest =>
    if key < entry.1 then (key, value) :: entry :: rest
    else if entry.1 < key then entry :: place key value rest
    else (key, value) :: rest

theorem mem_place {key : String} {value : ParameterValue} {entries : List Parameter}
    {entry : Parameter} (placed : entry ∈ place key value entries) :
    entry = (key, value) ∨ entry ∈ entries := by
  induction entries with
  | nil => simpa [place] using placed
  | cons first rest ih =>
    simp only [place] at placed
    split at placed
    · simpa using placed
    · split at placed
      · rcases List.mem_cons.1 placed with rfl | later
        · simp
        · rcases ih later with new | old
          · exact .inl new
          · exact .inr (List.mem_cons_of_mem _ old)
      · rcases List.mem_cons.1 placed with rfl | later
        · exact .inl rfl
        · exact .inr (List.mem_cons_of_mem _ later)

theorem place_ascending (key : String) (value : ParameterValue) {entries : List Parameter}
    (ascending : entries.Pairwise fun left right => left.1 < right.1) :
    (place key value entries).Pairwise fun left right => left.1 < right.1 := by
  induction entries with
  | nil => simp [place]
  | cons first rest ih =>
    obtain ⟨below, others⟩ := List.pairwise_cons.1 ascending
    simp only [place]
    split
    · next first_above =>
      refine List.pairwise_cons.2 ⟨?_, ascending⟩
      intro entry member
      rcases List.mem_cons.1 member with rfl | later
      · exact first_above
      · exact String.lt_trans first_above (below entry later)
    · split
      · next first_below =>
        refine List.pairwise_cons.2 ⟨?_, ih others⟩
        intro entry member
        rcases mem_place member with rfl | old
        · exact first_below
        · exact below entry old
      · next not_above not_below =>
        have same : key = first.1 :=
          String.le_antisymm (String.not_lt.1 not_below) (String.not_lt.1 not_above)
        exact List.pairwise_cons.2 ⟨by simpa [same] using below, others⟩

def insert (parameters : Parameters) (key : String) (value : ParameterValue) : Parameters :=
  ⟨place key value parameters.entries, place_ascending key value parameters.ascending⟩

def ofList (entries : List Parameter) : Parameters :=
  entries.foldl (fun parameters entry => parameters.insert entry.1 entry.2) empty

def find? (parameters : Parameters) (key : String) : Option ParameterValue :=
  parameters.entries.lookup key

end Parameters

structure Anchor where
  kind : AnchorKind
  parameters : Parameters
deriving DecidableEq

def Anchor.ofKind (kind : AnchorKind) : Anchor :=
  ⟨kind, .empty⟩

def Anchor.radius? (anchor : Anchor) : Option Float :=
  (anchor.parameters.find? "radius").bind ParameterValue.number?

end Spellcraft
