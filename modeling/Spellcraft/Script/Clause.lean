import Spellcraft.Spell.Spell

set_option autoImplicit false

namespace Spellcraft

inductive Clause where
  | focus
  | anchor
  | shift
  | cost
  | intent
deriving Repr, DecidableEq

namespace Clause

def all : List Clause :=
  [focus, anchor, shift, cost, intent]

def key : Clause → String
  | focus => "focus"
  | anchor => "anchor"
  | shift => "shift"
  | cost => "cost"
  | intent => "intent"

def ofLine? (line : List Char) : Option (Clause × List Char) :=
  all.findSome? fun clause =>
    (Text.after? (clause.key.toList ++ [':']) (Text.trim line)).map fun value =>
      (clause, Text.trim value)

end Clause

inductive ScriptError where
  | empty
  | missingClause (clause : Clause)
  | duplicateClause (clause : Clause)
  | invalidFocus (found : String)
  | invalidAnchorKind (found : String)
  | malformedAnchor (value : String)
  | malformedShift (value : String)
  | malformedCost (value : String)
  | malformedIntent (value : String)
  | unsealed
  -- Positions count from one.
  | sealBeforeEnd (position : Nat)
  | danglingBind
deriving Repr, DecidableEq

namespace ScriptError

def focusNames : String :=
  String.intercalate ", " (Focus.all.map Focus.name)

def anchorNames : String :=
  String.intercalate ", " (AnchorKind.all.map AnchorKind.name)

def message : ScriptError → String
  | empty => "empty spell: write a spell first"
  | missingClause clause => "missing '" ++ clause.key ++ ":' in spell"
  | duplicateClause clause => "duplicate '" ++ clause.key ++ ":' in spell"
  | invalidFocus found =>
    "invalid focus value: " ++ found ++ ". Must be one of: " ++ focusNames
  | invalidAnchorKind found =>
    "invalid anchor type: " ++ found ++ ". Must be one of: " ++ anchorNames
  | malformedAnchor value =>
    "invalid anchor format: " ++ value ++ ". Must be Type or Type(key:value,...)"
  | malformedShift value =>
    "invalid shift format: " ++ value ++ ". Must be in format +XX% or -XX%"
  | malformedCost value =>
    "invalid cost format: " ++ value ++ ". Must be in format XXE"
  | malformedIntent value =>
    "missing or malformed intent: " ++ value ++
      ". Must be in format: intent: \"Your intention\""
  | unsealed => "script must be sealed: final spell must end with 'seal'"
  | sealBeforeEnd position =>
    "'seal' may only end the final spell, found at the end of spell " ++
      Number.naturalString position
  | danglingBind => "'bind' must join two spells"

end ScriptError

end Spellcraft
