set_option autoImplicit false

namespace Spellcraft

inductive NameError where
  | focus (found : String)
  | anchorKind (found : String)
deriving Repr, DecidableEq

def NameError.message : NameError → String
  | .focus found => "unknown focus `" ++ found ++ "`"
  | .anchorKind found => "unknown anchor type `" ++ found ++ "`"

inductive Focus where
  | energy
  | probability
  | entropy
  | time
deriving Repr, DecidableEq

namespace Focus

def all : List Focus :=
  [energy, probability, entropy, time]

def name : Focus → String
  | energy => "Energy"
  | probability => "Probability"
  | entropy => "Entropy"
  | time => "Time"

def ofName? (text : String) : Option Focus :=
  all.find? (·.name == text)

def ofName (text : String) : Except NameError Focus :=
  match ofName? text with
  | some focus => .ok focus
  | none => .error (.focus text)

end Focus

inductive AnchorKind where
  | caster
  | object
  | zone
deriving Repr, DecidableEq

namespace AnchorKind

def all : List AnchorKind :=
  [caster, object, zone]

def name : AnchorKind → String
  | caster => "Self"
  | object => "Object"
  | zone => "Zone"

def ofName? (text : String) : Option AnchorKind :=
  all.find? (·.name == text)

def ofName (text : String) : Except NameError AnchorKind :=
  match ofName? text with
  | some kind => .ok kind
  | none => .error (.anchorKind text)

end AnchorKind

inductive Direction where
  | increase
  | decrease
deriving Repr, DecidableEq

namespace Direction

def sign : Direction → Char
  | increase => '+'
  | decrease => '-'

def ofSign? : Char → Option Direction
  | '+' => some increase
  | '-' => some decrease
  | _ => none

end Direction

structure Shift where
  direction : Direction
  amount : UInt32
deriving Repr, DecidableEq

def Shift.signed (shift : Shift) : Int :=
  match shift.direction with
  | .increase => shift.amount.toNat
  | .decrease => -shift.amount.toNat

end Spellcraft
