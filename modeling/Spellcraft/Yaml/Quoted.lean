import Spellcraft.Number.Hexadecimal
import Spellcraft.Yaml.Gap

set_option autoImplicit false

namespace Spellcraft.Yaml

def escaped? : Char → Option Char
  | '0' => some '\x00'
  | 'a' => some '\x07'
  | 'b' => some '\x08'
  | 't' => some '\t'
  | '\t' => some '\t'
  | 'n' => some '\n'
  | 'v' => some '\x0b'
  | 'f' => some '\x0c'
  | 'r' => some '\r'
  | 'e' => some '\x1b'
  | ' ' => some ' '
  | '"' => some '"'
  | '/' => some '/'
  | '\\' => some '\\'
  | 'N' => some '\u0085'
  | '_' => some '\u00a0'
  | 'L' => some '\u2028'
  | 'P' => some '\u2029'
  | _ => none

def escapeLength? : Char → Option Nat
  | 'x' => some 2
  | 'u' => some 4
  | 'U' => some 8
  | _ => none

def numbered? (digits : List Char) : Option Char :=
  (Number.hexNumber? digits).bind fun n =>
    if n < 0xD800 ∨ (0xDFFF < n ∧ n < 0x110000) then some (Char.ofNat n) else none

def readEscape : List Char → Option (Char × Nat)
  | [] => none
  | c :: rest =>
    match escapeLength? c with
    | none => (escaped? c).map fun value => (value, 1)
    | some length =>
      let digits := rest.take length
      if digits.length = length then (numbered? digits).map fun value => (value, length + 1)
      else none

def readQuotedWord (quote : Char) :
    Nat → Cursor → Option (List Char × Gap × Cursor)
  | 0, _ => none
  | bound + 1, cursor =>
    match cursor.rest with
    | [] => some ([], .none, cursor)
    | c :: rest =>
      let further := fun value width =>
        (readQuotedWord quote bound (cursor.skip width)).map fun (word, after) =>
          (value :: word, after)
      if isBlank c || isBreak c then some ([], .none, cursor)
      else if c = quote then
        if quote = '\'' && startsWith (· == quote) rest then further c 2
        else some ([], .none, cursor)
      else if quote = '"' && c = '\\' then
        if startsWith isBreak rest then some ([], .escaped, (cursor.skip 1).lineEnd.2)
        else
          match readEscape rest with
          | some (value, width) => further value (width + 1)
          | none => none
      else further c 1

/-- The text up to the closing quote, and the place behind it. No document starts or ends within. -/
def readQuoted (quote : Char) : Nat → Cursor → Option (List Char × Cursor)
  | 0, _ => none
  | bound + 1, cursor =>
    if cursor.isDocumentMark || cursor.rest.isEmpty then none
    else do
      let (word, gap, cursor) ← readQuotedWord quote bound cursor
      if startsWith (· == quote) cursor.rest then return (word, cursor.skip 1)
      let (gap, cursor) ← gap.read 0 bound cursor
      let (more, cursor) ← readQuoted quote bound cursor
      return (word ++ gap.text ++ more, cursor)

end Spellcraft.Yaml
