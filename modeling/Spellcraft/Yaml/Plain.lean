import Spellcraft.Yaml.Gap

set_option autoImplicit false

namespace Spellcraft.Yaml

def isBracketMark (c : Char) : Bool :=
  c == ',' || c == '[' || c == ']' || c == '\x7b' || c == '\x7d'

def isIndicator (c : Char) : Bool :=
  isBracketMark c || c == '-' || c == '?' || c == ':' || c == '#' || c == '&' || c == '*' ||
    c == '!' || c == '|' || c == '>' || c == '\'' || c == '"' || c == '%' || c == '@' || c == '\x60'

def startsPlain (inBrackets : Bool) : List Char → Bool
  | [] => false
  | c :: rest =>
    !(isBlank c || isBreak c || isIndicator c) ||
      (c == '-' && !startsWith isBlank rest) ||
      (!inBrackets && (c == '?' || c == ':') && !startsBlank rest)

def readPlainWord (inBrackets : Bool) : Nat → Cursor → Option (List Char × Cursor)
  | 0, _ => none
  | bound + 1, cursor =>
    match cursor.rest with
    | [] => some ([], cursor)
    | c :: rest =>
      if isBlank c || isBreak c then some ([], cursor)
      else if inBrackets && c == ':' && startsWith (fun c => isBracketMark c || c == '?') rest then
        none
      else if (c == ':' && startsBlank rest) || (inBrackets && isBracketMark c) then
        some ([], cursor)
      else
        (readPlainWord inBrackets bound (cursor.skip 1)).map fun (word, after) =>
          (c :: word, after)

/-- The text behind a gap, whether a gap over several lines follows it, and the place behind that.
Lines of the scalar start at the margin or further in; within brackets they start anywhere. -/
def readPlain (inBrackets : Bool) (margin : Nat) :
    Nat → Gap → Cursor → Option (List Char × Bool × Cursor)
  | 0, _, _ => none
  | bound + 1, gap, cursor =>
    if cursor.isDocumentMark || startsWith (· == '#') cursor.rest then
      some ([], gap.isBroken, cursor)
    else do
      let (word, cursor) ← readPlainWord inBrackets bound cursor
      if word.isEmpty then return ([], gap.isBroken, cursor)
      let (next, cursor) ← Gap.none.read margin bound cursor
      let text := gap.text ++ word
      if !inBrackets && cursor.column < margin then return (text, next.isBroken, cursor)
      let (more, isBroken, cursor) ← readPlain inBrackets margin bound next cursor
      return (text ++ more, isBroken, cursor)

end Spellcraft.Yaml
