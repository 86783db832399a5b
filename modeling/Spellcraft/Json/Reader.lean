import Spellcraft.Json.Digits
import Spellcraft.Number.Hexadecimal

set_option autoImplicit false

namespace Spellcraft.Json

def isSpace (c : Char) : Bool :=
  c == ' ' || c == '\t' || c == '\n' || c == '\r'

def skipSpace (input : List Char) : List Char :=
  input.dropWhile isSpace

/-- A piece of a text: a character, or a 16-bit unit given by its number. -/
inductive Piece where
  | char (value : Char)
  | unit (value : Nat)
deriving Repr, DecidableEq

def escaped? : Char → Option Char
  | '"' => some '"'
  | '\\' => some '\\'
  | '/' => some '/'
  | 'b' => some '\x08'
  | 'f' => some '\x0c'
  | 'n' => some '\n'
  | 'r' => some '\r'
  | 't' => some '\t'
  | _ => none

def readPieces : List Char → Option (List Piece × List Char)
  | [] => none
  | '"' :: rest => some ([], rest)
  | '\\' :: 'u' :: a :: b :: c :: d :: rest =>
    match Number.hexNumber? [a, b, c, d], readPieces rest with
    | some value, some (pieces, left) => some (.unit value :: pieces, left)
    | _, _ => none
  | '\\' :: c :: rest =>
    match escaped? c, readPieces rest with
    | some value, some (pieces, left) => some (.char value :: pieces, left)
    | _, _ => none
  | c :: rest =>
    if c.toNat < 0x20 then none
    else (readPieces rest).map fun (pieces, left) => (.char c :: pieces, left)

def joinPieces : List Piece → Option (List Char)
  | [] => some []
  | .char value :: rest => (joinPieces rest).map (value :: ·)
  | .unit high :: rest =>
    if 0xD800 ≤ high ∧ high < 0xDC00 then
      match rest with
      | .unit low :: others =>
        if 0xDC00 ≤ low ∧ low < 0xE000 then
          let value := 0x10000 + (high - 0xD800) * 0x400 + (low - 0xDC00)
          (joinPieces others).map (Char.ofNat value :: ·)
        else none
      | _ => none
    else if 0xDC00 ≤ high ∧ high < 0xE000 then none
    else (joinPieces rest).map (Char.ofNat high :: ·)

def readText (input : List Char) : Option (Option String × List Char) :=
  (readPieces input).map fun (pieces, left) => ((joinPieces pieces).map String.ofList, left)

def readFraction : List Char → Option (List Char × List Char)
  | '.' :: rest =>
    let digits := rest.takeWhile Char.isDigit
    if digits.isEmpty then none else some (digits, rest.dropWhile Char.isDigit)
  | rest => some ([], rest)

def readExponent : List Char → Option (Option Int × List Char)
  | [] => some (none, [])
  | mark :: rest =>
    if mark = 'e' ∨ mark = 'E' then
      let (negative, body) := Number.splitSign rest
      (Number.natural? (body.takeWhile Char.isDigit)).map fun n =>
        (some (if negative then -(n : Int) else n), body.dropWhile Char.isDigit)
    else some (none, mark :: rest)

def isWholePart : List Char → Bool
  | [] => false
  | ['0'] => true
  | first :: _ => first != '0'

def readNumber (input : List Char) : Option (Option Numeral × List Char) := do
  let (isNegative, body) :=
    match input with
    | '-' :: rest => (true, rest)
    | rest => (false, rest)
  let whole := body.takeWhile Char.isDigit
  if isWholePart whole then
    let (fraction, rest) ← readFraction (body.dropWhile Char.isDigit)
    let (exponent, rest) ← readExponent rest
    return ((NumberText.mk isNegative whole fraction exponent).value?, rest)
  else none

mutual

/-- Reads a value; each nested value and each further item takes one from the bound. -/
def readValue : Nat → List Char → Option (Json × List Char)
  | 0, _ => none
  | bound + 1, input =>
    match skipSpace input with
    | 'n' :: 'u' :: 'l' :: 'l' :: rest => some (.null, rest)
    | 't' :: 'r' :: 'u' :: 'e' :: rest => some (.bool true, rest)
    | 'f' :: 'a' :: 'l' :: 's' :: 'e' :: rest => some (.bool false, rest)
    | '"' :: rest => (readText rest).map fun (value, left) => (.text value, left)
    | '[' :: rest =>
      match skipSpace rest with
      | ']' :: left => some (.list [], left)
      | _ => (readItems bound rest).map fun (items, left) => (.list items, left)
    | '\x7b' :: rest =>
      match skipSpace rest with
      | '\x7d' :: left => some (.record [], left)
      | _ => (readFields bound rest).map fun (fields, left) => (.record fields, left)
    | rest => (readNumber rest).map fun (value, left) => (.number value, left)

def readItems : Nat → List Char → Option (List Json × List Char)
  | 0, _ => none
  | bound + 1, input =>
    match readValue bound input with
    | none => none
    | some (item, rest) =>
      match skipSpace rest with
      | ',' :: rest => (readItems bound rest).map fun (items, left) => (item :: items, left)
      | ']' :: left => some ([item], left)
      | _ => none

def readFields : Nat → List Char → Option (List (Option String × Json) × List Char)
  | 0, _ => none
  | bound + 1, input =>
    match skipSpace input with
    | '"' :: rest =>
      match readText rest with
      | none => none
      | some (name, rest) =>
        match skipSpace rest with
        | ':' :: rest =>
          match readValue bound rest with
          | none => none
          | some (value, rest) =>
            match skipSpace rest with
            | ',' :: rest =>
              (readFields bound rest).map fun (fields, left) => ((name, value) :: fields, left)
            | '\x7d' :: left => some ([(name, value)], left)
            | _ => none
        | _ => none
    | _ => none

end

def parse? (input : List Char) : Option Json :=
  match readValue (2 * input.length + 2) input with
  | some (value, rest) => if (skipSpace rest).isEmpty then some value else none
  | none => none

end Spellcraft.Json
