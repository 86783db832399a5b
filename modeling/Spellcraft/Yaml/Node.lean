set_option autoImplicit false

namespace Spellcraft

namespace Yaml

inductive Style where
  | plain
  | quoted
  | literal
  | folded
deriving Repr, DecidableEq

end Yaml

inductive Yaml where
  | scalar (style : Yaml.Style) (tag : Option (List Char)) (text : List Char)
  | mapping (entries : List (Yaml × Yaml))
  | sequence (items : List Yaml)
  | reference (anchor : Nat)

namespace Yaml

def empty : Yaml :=
  .scalar .plain none []

structure Document where
  root : Yaml
  anchored : Nat → Option Yaml

def Document.resolve (document : Document) (node : Yaml) : Yaml :=
  match node with
  | .reference anchor => (document.anchored anchor).getD node
  | node => node

end Yaml

end Spellcraft
