import Spellcraft.Yaml.Cursor

set_option autoImplicit false

namespace Spellcraft.Yaml

structure Gap where
  blanks : List Char
  breaks : List Char
  isBroken : Bool

namespace Gap

def none : Gap :=
  ⟨[], [], false⟩

/-- A gap that starts behind a line end that stands for nothing. -/
def escaped : Gap :=
  ⟨[], [], true⟩

/-- Reads blanks and line ends. Tabs are refused at the start of a line before the given column. -/
def read (margin : Nat) : Nat → Cursor → Gap → Option (Gap × Cursor)
  | 0, cursor, gap => some (gap, cursor)
  | bound + 1, cursor, gap =>
    match cursor.rest with
    | [] => some (gap, cursor)
    | c :: _ =>
      if isBlank c then
        if gap.isBroken then
          if c = '\t' ∧ cursor.column < margin then Option.none
          else read margin bound (cursor.skip 1) gap
        else read margin bound (cursor.skip 1) { gap with blanks := gap.blanks ++ [c] }
      else if isBreak c then
        let (stands, next) := cursor.lineEnd
        read margin bound next ⟨[], gap.breaks ++ stands, true⟩
      else some (gap, cursor)

def text (gap : Gap) : List Char :=
  if gap.isBroken then
    match gap.breaks with
    | ['\n'] => [' ']
    | '\n' :: others => others
    | breaks => breaks
  else gap.blanks

end Gap

end Spellcraft.Yaml
