import Spellcraft.Yaml.Node
import Spellcraft.Yaml.Property

set_option autoImplicit false

namespace Spellcraft.Yaml

inductive Token where
  | directive (directive : Directive)
  | documentStart
  | documentEnd
  | streamEnd
  | blockSequence
  | blockMapping
  | blockEnd
  | openSequence
  | closeSequence
  | openMapping
  | closeMapping
  | dash
  | comma
  | key
  | value
  | anchor (name : List Char)
  | reference (name : List Char)
  | tag (name : TagName)
  | scalar (style : Style) (text : List Char)
deriving Repr, DecidableEq

end Spellcraft.Yaml
