import Spellcraft.Spell.Keyword
import Spellcraft.Spell.Parameters

set_option autoImplicit false

namespace Spellcraft

structure Spell where
  focus : Focus
  anchor : Anchor
  shift : Shift
  -- The author's own estimate, which nothing is charged by.
  declaredCost : UInt32
  intent : String
  isBound : Bool
  isSealed : Bool
  isPrivileged : Bool
  keywords : List Keyword
deriving DecidableEq

namespace Spell

def carries (spell : Spell) (keyword : Keyword) : Bool :=
  spell.keywords.contains keyword

def starter : String :=
  "focus: Probability\nanchor: Self\nshift: +15%\ncost: 30E\n" ++
    "intent: \"Increase odds of favorable outcome\"\nseal"

end Spell

end Spellcraft
