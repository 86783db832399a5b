set_option autoImplicit false

namespace Spellcraft.Yaml

def isBreak (c : Char) : Bool :=
  c == '\n' || c == '\r' || c == '\u0085' || c == '\u2028' || c == '\u2029'

def isBlank (c : Char) : Bool :=
  c == ' ' || c == '\t'

def isNameLetter (c : Char) : Bool :=
  c.isAlphanum || c == '_' || c == '-'

def octets (text : List Char) : Nat :=
  text.foldl (fun count c => count + c.utf8Size) 0

def startsWith (isWanted : Char → Bool) (text : List Char) : Bool :=
  text.head?.any isWanted

def startsBreak (text : List Char) : Bool :=
  text.head?.all isBreak

def startsBlank (text : List Char) : Bool :=
  text.head?.all fun c => isBlank c || isBreak c

structure Cursor where
  rest : List Char
  offset : Nat
  line : Nat
  column : Nat

namespace Cursor

def ofText (text : List Char) : Cursor :=
  ⟨text, 0, 0, 0⟩

def skip (cursor : Cursor) (count : Nat) : Cursor :=
  { cursor with
    rest := cursor.rest.drop count
    offset := cursor.offset + octets (cursor.rest.take count)
    column := cursor.column + count }

def run (cursor : Cursor) (isWanted : Char → Bool) : List Char × Cursor :=
  let text := cursor.rest.takeWhile isWanted
  (text, cursor.skip text.length)

def skipBlanks (cursor : Cursor) : Cursor :=
  (cursor.run isBlank).2

def skipLine (cursor : Cursor) : Cursor :=
  (cursor.run fun c => !isBreak c).2

def lineEnd (cursor : Cursor) : List Char × Cursor :=
  let next := fun count => (
    { rest := cursor.rest.drop count
      offset := cursor.offset + octets (cursor.rest.take count)
      line := cursor.line + 1
      column := 0 } : Cursor)
  match cursor.rest with
  | '\r' :: '\n' :: _ => (['\n'], next 2)
  | c :: _ =>
    if c = '\u2028' ∨ c = '\u2029' then ([c], next 1)
    else if isBreak c then (['\n'], next 1)
    else ([], cursor)
  | [] => ([], cursor)

def skipComment (cursor : Cursor) : Cursor :=
  if startsWith (· == '#') cursor.rest then cursor.skipLine else cursor

def endLine? (cursor : Cursor) : Option Cursor :=
  let cursor := cursor.skipBlanks.skipComment
  if startsBreak cursor.rest then some cursor.lineEnd.2 else none

def isMark (cursor : Cursor) (c : Char) : Bool :=
  cursor.column == 0 && cursor.rest.take 3 == [c, c, c] && startsBlank (cursor.rest.drop 3)

def isDocumentMark (cursor : Cursor) : Bool :=
  cursor.isMark '-' || cursor.isMark '.'

end Cursor

end Spellcraft.Yaml
