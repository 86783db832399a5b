set_option autoImplicit false

namespace Spellcraft

structure Laws where
  maxSafeShift : UInt32 := 200
  energyCeiling : Float := 200.0
  entropyCeiling : Float := 200.0
  privilegedEntropyCeiling : Float := 500.0
  maxTimeMultiplier : Float := 5.0
  normalTimeMin : Float := 0.5
  normalTimeMax : Float := 2.0
  probabilityLimit : Float := 100.0
  probabilityCorrectionDelay : UInt64 := 5000
  timeNormalizationDelay : UInt64 := 15000
  energyDuration : UInt64 := 8000
  probabilityDuration : UInt64 := 12000
  entropyDuration : UInt64 := 10000
  timeDuration : UInt64 := 15000
  kernelDuration : UInt64 := 20000
  paradoxFastSpeed : Float := 10.0
  paradoxSlowSpeed : Float := 0.1
deriving DecidableEq

/-- A law that cannot be followed, which ends the run: a range that holds no value. -/
inductive Fault where
  | emptyRange (low high : Float)
deriving DecidableEq

end Spellcraft
