import Spellcraft.Spell.Parameters
import Spellcraft.EffectId

set_option autoImplicit false

namespace Spellcraft

inductive EffectKind where
  | ofFocus (focus : Focus)
  | kernelSpace
deriving Repr, DecidableEq

namespace EffectKind

def all : List EffectKind :=
  Focus.all.map ofFocus ++ [kernelSpace]

def name : EffectKind → String
  | ofFocus focus => focus.name
  | kernelSpace => "KernelSpace"

def ofName? (text : String) : Option EffectKind :=
  all.find? (·.name == text)

end EffectKind

/-- The trace of one accepted spell, for a limited time. Times are in milliseconds. -/
structure Effect where
  id : EffectId
  kind : EffectKind
  anchor : Anchor
  shift : Int64
  duration : UInt64
  start : UInt64
  intensity : Float
deriving DecidableEq

namespace Effect

-- A clock that reads less than the start counts as no time passed.
def age (effect : Effect) (now : UInt64) : Nat :=
  now.toNat - effect.start.toNat

def isExpired (effect : Effect) (now : UInt64) : Bool :=
  effect.duration.toNat ≤ effect.age now

def remaining (effect : Effect) (now : UInt64) : UInt64 :=
  UInt64.ofNat (effect.duration.toNat - effect.age now)

end Effect

structure Dimensions where
  width : UInt32
  height : UInt32
deriving Repr, DecidableEq

structure Reality where
  energy : Float := 100.0
  probability : Float := 0.0
  entropy : Float := 20.0
  timeSpeed : Float := 1.0
  -- In the order in which they were created.
  effects : List Effect := []
  lastFocus : Option Focus := none
  dimensions : Dimensions := ⟨800, 600⟩
deriving DecidableEq

namespace Reality

def effect? (reality : Reality) (id : EffectId) : Option Effect :=
  reality.effects.find? (·.id == id)

def get (reality : Reality) : Focus → Float
  | .energy => reality.energy
  | .probability => reality.probability
  | .entropy => reality.entropy
  | .time => reality.timeSpeed

def set (reality : Reality) (focus : Focus) (value : Float) : Reality :=
  match focus with
  | .energy => { reality with energy := value }
  | .probability => { reality with probability := value }
  | .entropy => { reality with entropy := value }
  | .time => { reality with timeSpeed := value }

end Reality

end Spellcraft
