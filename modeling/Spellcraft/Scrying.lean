import Spellcraft.Reality.State

set_option autoImplicit false

namespace Spellcraft.Scrying

def oneDecimal (x : Float) : String :=
  String.ofList (Number.fixed 1 x)

def summary (reality : Reality) : String :=
  "Energy: " ++ oneDecimal reality.energy ++
    "\nProbability: " ++ oneDecimal reality.probability ++
    "\nEntropy: " ++ oneDecimal reality.entropy ++
    "\nTime: " ++ oneDecimal reality.timeSpeed ++ "x" ++
    "\nActive effects: " ++ Number.naturalString reality.effects.length

structure EffectView where
  id : EffectId
  kind : EffectKind
  anchor : AnchorKind
  shift : Int64
  intensity : Float
  remaining : UInt64
deriving DecidableEq

namespace EffectView

def ofEffect (now : UInt64) (effect : Effect) : EffectView where
  id := effect.id
  kind := effect.kind
  anchor := effect.anchor.kind
  shift := effect.shift
  intensity := effect.intensity
  remaining := effect.remaining now

def shortId (view : EffectView) : String :=
  String.ofList (view.id.text.take 8)

def lineAs (label : String) (view : EffectView) : String :=
  "Effect [" ++ label ++ "] " ++ view.kind.name ++ " @ " ++ view.anchor.name ++
    " shift=" ++ String.ofList (Number.signedText view.shift.toInt) ++
    " intensity=" ++ String.ofList (Number.fixed 2 view.intensity) ++
    " remaining=" ++ oneDecimal (view.remaining.toFloat / 1000.0) ++ "s"

def line (view : EffectView) : String :=
  view.lineAs view.shortId

end EffectView

def effects (reality : Reality) (now : UInt64) : List EffectView :=
  reality.effects.map (EffectView.ofEffect now)

end Spellcraft.Scrying
