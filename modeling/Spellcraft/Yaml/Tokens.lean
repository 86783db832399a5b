import Spellcraft.Yaml.Block
import Spellcraft.Yaml.Plain
import Spellcraft.Yaml.Quoted
import Spellcraft.Yaml.Token

set_option autoImplicit false

namespace Spellcraft.Yaml

structure PossibleKey where
  number : Nat
  offset : Nat
  line : Nat
  column : Nat
  -- It stands where nothing but a key can.
  isRequired : Bool
deriving Repr, DecidableEq

namespace PossibleKey

def isStale (key : PossibleKey) (cursor : Cursor) : Bool :=
  key.line < cursor.line || key.offset + 1024 < cursor.offset

/-- Forgets a key that can be none any more, unless it had to be one. -/
def refresh (cursor : Cursor) : Option PossibleKey → Option (Option PossibleKey)
  | none => some none
  | some key =>
    if !key.isStale cursor then some (some key)
    else if key.isRequired then none
    else some none

end PossibleKey

structure Noted where
  before : List Token
  token : Token
deriving Repr, DecidableEq

structure Progress where
  cursor : Cursor
  -- More than the characters of the text.
  bound : Nat
  tokens : Array Noted
  -- Where the contents of the innermost block start at least, or zero outside all blocks.
  margin : Nat
  margins : List Nat
  isKeyAllowed : Bool
  -- The possible key of the innermost collection in brackets, or of the blocks outside them.
  key : Option PossibleKey
  outerKeys : List (Option PossibleKey)

namespace Progress

def ofText (text : List Char) : Progress where
  cursor := .ofText text
  bound := text.length + 2
  tokens := #[]
  margin := 0
  margins := []
  isKeyAllowed := true
  key := none
  outerKeys := []

def inBrackets (progress : Progress) : Bool :=
  !progress.outerKeys.isEmpty

def add (progress : Progress) (token : Token) : Progress :=
  { progress with tokens := progress.tokens.push ⟨[], token⟩ }

def move (progress : Progress) (cursor : Cursor) : Progress :=
  { progress with cursor }

def skip (progress : Progress) (count : Nat) : Progress :=
  progress.move (progress.cursor.skip count)

def allowKey (progress : Progress) (isAllowed : Bool) : Progress :=
  { progress with isKeyAllowed := isAllowed }

/-- Passes over all that stands between tokens. A tab is not passed over where a key may start by
being indented. -/
def skipToToken : Nat → Progress → Progress
  | 0, progress => progress
  | bound + 1, progress =>
    let cursor := progress.cursor
    let cursor :=
      if cursor.column = 0 ∧ cursor.rest.head? = some '\uFEFF' then cursor.skip 1 else cursor
    let passesTabs := progress.inBrackets || !progress.isKeyAllowed
    let (_, cursor) := cursor.run fun c => c == ' ' || (passesTabs && c == '\t')
    let cursor := cursor.skipComment
    if startsWith isBreak cursor.rest then
      let isAllowed := progress.isKeyAllowed || !progress.inBrackets
      skipToToken bound ((progress.move cursor.lineEnd.2).allowKey isAllowed)
    else progress.move cursor

def refreshKeys (progress : Progress) : Option Progress := do
  let key ← PossibleKey.refresh progress.cursor progress.key
  let outerKeys ← progress.outerKeys.mapM (PossibleKey.refresh progress.cursor)
  return { progress with key, outerKeys }

def closeBlocks (limit : Nat) : List Nat → Progress → Progress
  | [], progress => progress
  | outer :: others, progress =>
    if limit < progress.margin then
      closeBlocks limit others
        { progress.add .blockEnd with margin := outer, margins := others }
    else progress

def closeBlocksTo (progress : Progress) (limit : Nat) : Progress :=
  if progress.inBrackets then progress else closeBlocks limit progress.margins progress

def dropKey (progress : Progress) : Option Progress :=
  if progress.key.any PossibleKey.isRequired then none else some { progress with key := none }

def saveKey (progress : Progress) : Option Progress := do
  if !progress.isKeyAllowed then return progress
  let dropped ← progress.dropKey
  let cursor := progress.cursor
  let isRequired := !progress.inBrackets && progress.margin == cursor.column + 1
  return { dropped with
    key := some ⟨progress.tokens.size, cursor.offset, cursor.line, cursor.column, isRequired⟩ }

def indentTo (progress : Progress) (column : Nat) : Progress × Bool :=
  if !progress.inBrackets && progress.margin ≤ column then
    ({ progress with margin := column + 1, margins := progress.margin :: progress.margins }, true)
  else (progress, false)

def openBlock (progress : Progress) (token : Token) : Option Progress :=
  if progress.inBrackets then some progress
  else if !progress.isKeyAllowed then none
  else
    match progress.indentTo progress.cursor.column with
    | (indented, true) => some (indented.add token)
    | (same, false) => some same

def readStreamEnd (progress : Progress) : Option Progress := do
  let dropped ← (progress.closeBlocksTo 0).dropKey
  return (dropped.allowKey false).add .streamEnd

def readDirectiveLine (progress : Progress) : Option Progress := do
  let dropped ← (progress.closeBlocksTo 0).dropKey
  let (directive, cursor) ← readDirective (progress.cursor.skip 1)
  return ((dropped.allowKey false).add (.directive directive)).move cursor

def readDocumentMark (progress : Progress) (token : Token) : Option Progress := do
  let dropped ← (progress.closeBlocksTo 0).dropKey
  return ((dropped.allowKey false).add token).skip 3

def readOpening (progress : Progress) (token : Token) : Option Progress := do
  let saved ← progress.saveKey
  let inner := { saved with key := none, outerKeys := saved.key :: saved.outerKeys }
  return ((inner.allowKey true).add token).skip 1

def readClosing (progress : Progress) (token : Token) : Option Progress := do
  let dropped ← progress.dropKey
  let outer :=
    match dropped.outerKeys with
    | [] => dropped
    | key :: outerKeys => { dropped with key, outerKeys }
  return ((outer.allowKey false).add token).skip 1

def readComma (progress : Progress) : Option Progress := do
  let dropped ← progress.dropKey
  return ((dropped.allowKey true).add .comma).skip 1

def readDash (progress : Progress) : Option Progress := do
  let opened ← progress.openBlock .blockSequence
  let dropped ← opened.dropKey
  return ((dropped.allowKey true).add .dash).skip 1

def readKeyMark (progress : Progress) : Option Progress := do
  let opened ← progress.openBlock .blockMapping
  let dropped ← opened.dropKey
  return ((dropped.allowKey !progress.inBrackets).add .key).skip 1

/-- A colon stands behind a possible key, or behind a key with a mark of its own. -/
def readValueMark (progress : Progress) : Option Progress :=
  match progress.key with
  | some key =>
    let (indented, opensBlock) := progress.indentTo key.column
    let before := if opensBlock then [.blockMapping, .key] else [.key]
    let tokens := indented.tokens.modify key.number fun noted => { noted with before }
    some ((({ indented with tokens, key := none }.allowKey false).add .value).skip 1)
  | none => do
    let opened ← progress.openBlock .blockMapping
    return ((opened.allowKey !progress.inBrackets).add .value).skip 1

def readPart (progress : Progress) (part : Option (Token × Cursor)) : Option Progress := do
  let saved ← progress.saveKey
  let (token, cursor) ← part
  return ((saved.allowKey false).add token).move cursor

def readQuotedPart (progress : Progress) (quote : Char) : Option Progress :=
  let start := progress.cursor.skip 1
  progress.readPart
    ((readQuoted quote progress.bound start).map fun (text, cursor) =>
      (.scalar .quoted text, cursor))

def readBlockPart (progress : Progress) (isLiteral : Bool) : Option Progress := do
  let dropped ← progress.dropKey
  let (text, cursor) ← readBlock isLiteral progress.margin progress.bound (progress.cursor.skip 1)
  let style := if isLiteral then Style.literal else Style.folded
  return ((dropped.allowKey true).add (.scalar style text)).move cursor

/-- A key may start behind a plain scalar whose last line is a former one. -/
def readPlainPart (progress : Progress) : Option Progress := do
  let saved ← progress.saveKey
  let (text, isBroken, cursor) ←
    readPlain progress.inBrackets progress.margin progress.bound .none progress.cursor
  return ((saved.allowKey isBroken).add (.scalar .plain text)).move cursor

def readToken (progress : Progress) : Option Progress :=
  let cursor := progress.cursor
  match cursor.rest with
  | [] => progress.readStreamEnd
  | c :: rest =>
    if cursor.column = 0 ∧ c = '%' then progress.readDirectiveLine
    else if cursor.isMark '-' then progress.readDocumentMark .documentStart
    else if cursor.isMark '.' then progress.readDocumentMark .documentEnd
    else if c = '[' then progress.readOpening .openSequence
    else if c = '\x7b' then progress.readOpening .openMapping
    else if c = ']' then progress.readClosing .closeSequence
    else if c = '\x7d' then progress.readClosing .closeMapping
    else if c = ',' then progress.readComma
    else if c = '-' ∧ startsBlank rest then progress.readDash
    else if c = '?' ∧ (progress.inBrackets ∨ startsBlank rest) then progress.readKeyMark
    else if c = ':' ∧ (progress.inBrackets ∨ startsBlank rest) then progress.readValueMark
    else if c = '*' then
      progress.readPart
        ((readAnchor (cursor.skip 1)).map fun (name, cursor) => (.reference name, cursor))
    else if c = '&' then
      progress.readPart
        ((readAnchor (cursor.skip 1)).map fun (name, cursor) => (.anchor name, cursor))
    else if c = '!' then
      progress.readPart
        ((readTag progress.inBrackets cursor).map fun (tag, cursor) => (.tag tag, cursor))
    else if c = '|' ∧ !progress.inBrackets then progress.readBlockPart true
    else if c = '>' ∧ !progress.inBrackets then progress.readBlockPart false
    else if c = '\'' ∨ c = '"' then progress.readQuotedPart c
    else if startsPlain progress.inBrackets cursor.rest then progress.readPlainPart
    else none

def readNext (progress : Progress) : Option Progress := do
  let arrived := progress.skipToToken progress.bound
  let refreshed ← arrived.refreshKeys
  (refreshed.closeBlocksTo (refreshed.cursor.column + 1)).readToken

def readAll : Nat → Progress → Option Progress
  | 0, _ => none
  | bound + 1, progress =>
    match progress.readNext with
    | none => none
    | some next =>
      if next.tokens.back?.any (·.token == .streamEnd) then some next else readAll bound next

def allTokens (progress : Progress) : List Token :=
  progress.tokens.toList.flatMap fun noted => noted.before ++ [noted.token]

end Progress

def isAllowed (c : Char) : Bool :=
  let n := c.toNat
  n == 9 || n == 10 || n == 13 || (0x20 ≤ n && n ≤ 0x7E) || n == 0x85 ||
    (0xA0 ≤ n && n ≤ 0xD7FF) || (0xE000 ≤ n && n ≤ 0xFFFD) || 0x10000 ≤ n

def tokens? (text : List Char) : Option (List Token) :=
  if text.all isAllowed then
    let start := Progress.ofText text
    (start.readAll start.bound).map Progress.allTokens
  else none

end Spellcraft.Yaml
