import Spellcraft.Script.Value

set_option autoImplicit false

namespace Spellcraft.Script

abbrev Segment := List (List Char)

def isBind (line : List Char) : Bool :=
  Text.trim line == "bind".toList

def segments (script : List Char) : List Segment :=
  (Text.lines script).splitOnP isBind

def Segment.isBlank (segment : Segment) : Bool :=
  segment.all Text.allBlank

def unsealLine? (line : List Char) : Option (List Char) :=
  (Text.before? "seal".toList (Text.trimEnd line)).filter fun rest =>
    rest.getLast?.all Text.isBlank

def unseal? (segment : Segment) : Option Segment :=
  match segment.reverse.dropWhile Text.allBlank with
  | [] => none
  | last :: before => (unsealLine? last).map fun rest => (rest :: before).reverse

def repeated? (seen : List Clause) : List Clause → Option Clause
  | [] => none
  | clause :: rest => if clause ∈ seen then some clause else repeated? (clause :: seen) rest

abbrev Values := List (Clause × List Char)

def gather (segment : Segment) : Except ScriptError Values :=
  let values := segment.filterMap Clause.ofLine?
  match repeated? [] (values.map Prod.fst) with
  | some clause => .error (.duplicateClause clause)
  | none => .ok values

def Values.get (values : Values) (clause : Clause) : Except ScriptError (List Char) :=
  match values.lookup clause with
  | some value => .ok value
  | none => .error (.missingClause clause)

def readSpell (keywords : List Keyword) (isLast : Bool) (segment : Segment) :
    Except ScriptError Spell := do
  let values ← gather segment
  let focus ← readFocus (← values.get .focus)
  let anchor ← readAnchor (← values.get .anchor)
  let shift ← readShift (← values.get .shift)
  let cost ← readCost (← values.get .cost)
  let intent ← readIntent (← values.get .intent)
  return {
    focus, anchor, shift, intent
    declaredCost := cost
    isBound := !isLast
    isSealed := isLast
    isPrivileged := !keywords.isEmpty
    keywords }

def readSegments (keywords : List Keyword) :
    Nat → List Segment → Except ScriptError (List Spell)
  | _, [] => .ok []
  | _, [last] =>
    match unseal? last with
    | none => .error .unsealed
    | some body => do
      let spell ← readSpell keywords true body
      return [spell]
  | position, segment :: others =>
    match unseal? segment with
    | some _ => .error (.sealBeforeEnd position)
    | none => do
      let spell ← readSpell keywords false segment
      let spells ← readSegments keywords (position + 1) others
      return spell :: spells

def read (script : List Char) : Except ScriptError (List Spell) :=
  if Text.allBlank script then .error .empty
  else
    let parts := segments script
    if parts.any Segment.isBlank then .error .danglingBind
    else readSegments (Keyword.inText script) 1 parts

end Spellcraft.Script

namespace Spellcraft

def Spell.ofScript (script : String) : Except ScriptError (List Spell) :=
  Script.read script.toList

end Spellcraft
