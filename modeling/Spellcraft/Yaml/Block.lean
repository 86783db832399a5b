import Spellcraft.Yaml.Cursor

set_option autoImplicit false

namespace Spellcraft.Yaml

inductive Chomping where
  | strip
  | clip
  | keep
deriving Repr, DecidableEq

structure BlockHeader where
  chomping : Chomping
  indentation : Option Nat

def readChomping (cursor : Cursor) : Option Chomping × Cursor :=
  match cursor.rest with
  | '+' :: _ => (some .keep, cursor.skip 1)
  | '-' :: _ => (some .strip, cursor.skip 1)
  | _ => (none, cursor)

def readIndentation (cursor : Cursor) : Option (Option Nat × Cursor) :=
  match cursor.rest with
  | c :: _ =>
    if c = '0' then none
    else if c.isDigit then some (some (c.toNat - '0'.toNat), cursor.skip 1)
    else some (none, cursor)
  | [] => some (none, cursor)

def readBlockHeader (cursor : Cursor) : Option (BlockHeader × Cursor) := do
  let (before, cursor) := readChomping cursor
  let (indentation, cursor) ← readIndentation cursor
  let (chomping, cursor) :=
    if before.isSome || indentation.isNone then (before, cursor) else readChomping cursor
  let next ← cursor.endLine?
  return (⟨chomping.getD .clip, indentation⟩, next)

/-- Passes over the indentation and over empty lines, and gathers their ends. While it is not known
how far lines are indented, all spaces are passed over. Answers the column of what comes next, or
that of the longest empty line. -/
def readEmptyLines (indent : Option Nat) :
    Nat → Cursor → List Char → Nat → Option (List Char × Nat × Cursor)
  | 0, _, _, _ => none
  | bound + 1, cursor, breaks, widest =>
    let spaces := (cursor.rest.takeWhile (· == ' ')).length
    let count :=
      match indent with
      | some indent => min spaces (indent - cursor.column)
      | none => spaces
    let cursor := cursor.skip count
    let widest := max widest cursor.column
    let isBefore := indent.all fun indent => decide (cursor.column < indent)
    if isBefore && startsWith (· == '\t') cursor.rest then none
    else if startsWith isBreak cursor.rest then
      let (stands, next) := cursor.lineEnd
      readEmptyLines indent bound next (breaks ++ stands) widest
    else some (breaks, widest, cursor)

structure BlockText where
  text : List Char
  lastBreak : List Char
  breaks : List Char
  endsIndented : Bool

def BlockText.joint (block : BlockText) (isLiteral startsIndented : Bool) : List Char :=
  if !isLiteral && block.lastBreak == ['\n'] && !block.endsIndented && !startsIndented then
    if block.breaks.isEmpty then [' '] else block.breaks
  else block.lastBreak ++ block.breaks

def readBlockLines (isLiteral : Bool) (indent : Nat) :
    Nat → BlockText → Cursor → Option (BlockText × Cursor)
  | 0, _, _ => none
  | bound + 1, block, cursor =>
    if cursor.column = indent && !cursor.rest.isEmpty then do
      let startsIndented := startsWith isBlank cursor.rest
      let (line, cursor) := cursor.run fun c => !isBreak c
      let (lastBreak, cursor) := cursor.lineEnd
      let (breaks, _, cursor) ←
        readEmptyLines (some indent) bound cursor [] 0
      let text := block.text ++ block.joint isLiteral startsIndented ++ line
      readBlockLines isLiteral indent bound ⟨text, lastBreak, breaks, startsIndented⟩ cursor
    else some (block, cursor)

def BlockText.chomped (block : BlockText) : Chomping → List Char
  | .strip => block.text
  | .clip => block.text ++ block.lastBreak
  | .keep => block.text ++ block.lastBreak ++ block.breaks

/-- Reads a block behind its mark. Its lines start at the margin or further in, though never in the
first column. -/
def readBlock (isLiteral : Bool) (margin bound : Nat) (cursor : Cursor) :
    Option (List Char × Cursor) := do
  let (header, cursor) ← readBlockHeader cursor
  let given := header.indentation.map fun indentation => margin - 1 + indentation
  let (breaks, widest, cursor) ← readEmptyLines given bound cursor [] 0
  let indent := given.getD (max widest (max margin 1))
  let (block, cursor) ← readBlockLines isLiteral indent bound ⟨[], [], breaks, false⟩ cursor
  return (block.chomped header.chomping, cursor)

end Spellcraft.Yaml
