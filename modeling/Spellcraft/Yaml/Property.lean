import Spellcraft.Yaml.Cursor
import Spellcraft.Number.Hexadecimal

set_option autoImplicit false

namespace Spellcraft.Yaml

def readAnchor (cursor : Cursor) : Option (List Char × Cursor) :=
  let (name, cursor) := cursor.run isNameLetter
  let endsHere :=
    startsBlank cursor.rest || startsWith ['?', ':', ',', ']', '\x7d', '%', '@', '\x60'].contains
      cursor.rest
  if !name.isEmpty && endsHere then some (name, cursor) else none

def octetCount? (first : Nat) : Option Nat :=
  if first < 0x80 then some 1
  else if 0xC0 ≤ first ∧ first < 0xE0 then some 2
  else if 0xE0 ≤ first ∧ first < 0xF0 then some 3
  else if 0xF0 ≤ first ∧ first < 0xF8 then some 4
  else none

def readOctet (cursor : Cursor) : Option (Nat × Cursor) :=
  match cursor.rest with
  | '%' :: high :: low :: _ =>
    (Number.hexNumber? [high, low]).map fun value => (value, cursor.skip 3)
  | _ => none

def readFurtherOctets : Nat → Cursor → Option (List Char × Cursor)
  | 0, cursor => some ([], cursor)
  | count + 1, cursor => do
    let (octet, cursor) ← readOctet cursor
    if octet < 0x80 ∨ 0xC0 ≤ octet then none
    else
      let (more, cursor) ← readFurtherOctets count cursor
      return (Char.ofNat octet :: more, cursor)

def readOctets (cursor : Cursor) : Option (List Char × Cursor) := do
  let (first, cursor) ← readOctet cursor
  let count ← octetCount? first
  let (more, cursor) ← readFurtherOctets (count - 1) cursor
  return (Char.ofNat first :: more, cursor)

def isTagLetter (c : Char) : Bool :=
  isNameLetter c || ";/?:@&=+$.%!~*'()".toList.contains c

/-- Reads what follows in a tag. Only some tags hold the marks of brackets. -/
def readTagText (withMarks : Bool) : Nat → Cursor → Option (List Char × Cursor)
  | 0, _ => none
  | bound + 1, cursor =>
    match cursor.rest with
    | [] => some ([], cursor)
    | c :: _ =>
      let part? :=
        if c = '%' then some (readOctets cursor)
        else if isTagLetter c || (withMarks && (c == ',' || c == '[' || c == ']')) then
          some (some ([c], cursor.skip 1))
        else none
      match part? with
      | none => some ([], cursor)
      | some none => none
      | some (some (part, cursor)) =>
        (readTagText withMarks bound cursor).map fun (more, after) => (part ++ more, after)

def readTagRest (withMarks : Bool) (cursor : Cursor) : Option (List Char × Cursor) :=
  readTagText withMarks (cursor.rest.length + 1) cursor

def readHandle (cursor : Cursor) : Option (List Char × Cursor) :=
  match cursor.rest with
  | '!' :: _ =>
    let (name, cursor) := (cursor.skip 1).run isNameLetter
    match cursor.rest with
    | '!' :: _ => some ('!' :: name ++ ['!'], cursor.skip 1)
    | _ => some ('!' :: name, cursor)
  | _ => none

structure TagName where
  handle : Option (List Char)
  suffix : List Char
deriving Repr, DecidableEq

def readVerbatimTag (cursor : Cursor) : Option (TagName × Cursor) := do
  let (suffix, cursor) ← readTagRest true (cursor.skip 2)
  if suffix.isEmpty then none
  match cursor.rest with
  | '>' :: _ => some (⟨none, suffix⟩, cursor.skip 1)
  | _ => none

/-- A name before which no second exclamation mark stands is no handle but part of the tag. -/
def readShortTag (cursor : Cursor) : Option (TagName × Cursor) := do
  let (handle, cursor) ← readHandle cursor
  let (rest, cursor) ← readTagRest false cursor
  if 1 < handle.length ∧ handle.getLast? = some '!' then
    if rest.isEmpty then none else some (⟨some handle, rest⟩, cursor)
  else
    let suffix := handle.drop 1 ++ rest
    if suffix.isEmpty then some (⟨none, ['!']⟩, cursor)
    else some (⟨some ['!'], suffix⟩, cursor)

def readTag (inBrackets : Bool) (cursor : Cursor) : Option (TagName × Cursor) := do
  let (tag, cursor) ←
    match cursor.rest with
    | '!' :: '<' :: _ => readVerbatimTag cursor
    | _ => readShortTag cursor
  if (inBrackets && startsWith (· == ',') cursor.rest) || startsBlank cursor.rest then
    return (tag, cursor)
  else none

inductive Directive where
  | version (major minor : Nat)
  | tagHandle (handle beginning : List Char)
deriving Repr, DecidableEq

def readVersionNumber (cursor : Cursor) : Option (Nat × Cursor) :=
  let (digits, cursor) := cursor.run Char.isDigit
  if digits.isEmpty || 9 < digits.length then none
  else some (digits.foldl (fun value c => 10 * value + (c.toNat - '0'.toNat)) 0, cursor)

def readVersion (cursor : Cursor) : Option (Directive × Cursor) := do
  let (major, cursor) ← readVersionNumber cursor.skipBlanks
  match cursor.rest with
  | '.' :: _ =>
    let (minor, cursor) ← readVersionNumber (cursor.skip 1)
    return (.version major minor, cursor)
  | _ => none

def readTagHandle (cursor : Cursor) : Option (Directive × Cursor) := do
  let (handle, cursor) ← readHandle cursor.skipBlanks
  if 1 < handle.length ∧ handle.getLast? ≠ some '!' then none
  else if startsWith isBlank cursor.rest then
    let (beginning, cursor) ← readTagRest true cursor.skipBlanks
    if beginning.isEmpty || !startsBlank cursor.rest then none
    else return (.tagHandle handle beginning, cursor)
  else none

def readDirective (cursor : Cursor) : Option (Directive × Cursor) := do
  let (name, cursor) := cursor.run isNameLetter
  if !startsBlank cursor.rest then none
  let (directive, cursor) ←
    match String.ofList name with
    | "YAML" => readVersion cursor
    | "TAG" => readTagHandle cursor
    | _ => none
  let next ← cursor.endLine?
  return (directive, next)

end Spellcraft.Yaml
