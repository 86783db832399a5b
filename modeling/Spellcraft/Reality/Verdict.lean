import Spellcraft.Number.Layout

set_option autoImplicit false

namespace Spellcraft

inductive Feedback where
  | energyOverload
  | realityFracture
  | timeLoop
  | energyInsufficient
  | paradox
deriving Repr, DecidableEq

namespace Feedback

def all : List Feedback :=
  [energyOverload, realityFracture, timeLoop, energyInsufficient, paradox]

def name : Feedback → String
  | energyOverload => "energy_overload"
  | realityFracture => "reality_fracture"
  | timeLoop => "time_loop"
  | energyInsufficient => "energy_insufficient"
  | paradox => "paradox"

def ofName? (text : String) : Option Feedback :=
  all.find? (·.name == text)

end Feedback

inductive Refusal where
  | unsafeShift
  | energyBelowZero
  | entropyBelowZero
  | entropyUnstable
  | timeHalted
  | timeTooFast
  | unaffordable (cost energy : UInt32)
deriving Repr, DecidableEq

namespace Refusal

def message : Refusal → String
  | unsafeShift => "Spell exceeds safe reality manipulation limits."
  | energyBelowZero => "Cannot reduce energy below zero."
  | entropyBelowZero => "Cannot reduce entropy below zero."
  | entropyUnstable => "Entropy too high. Reality becoming unstable."
  | timeHalted => "Cannot halt or reverse time flow."
  | timeTooFast => "Time acceleration too extreme."
  | unaffordable cost energy =>
    "Not enough energy. Need " ++ Number.naturalString cost.toNat ++
      "E, have " ++ Number.naturalString energy.toNat ++ "E."

def feedback : Refusal → Feedback
  | unsafeShift => .realityFracture
  | energyBelowZero => .energyInsufficient
  | entropyBelowZero => .paradox
  | entropyUnstable => .realityFracture
  | timeHalted => .timeLoop
  | timeTooFast => .timeLoop
  | unaffordable _ _ => .energyInsufficient

end Refusal

inductive Account where
  | energyMoved (shift : Int)
  | probabilityMoved (shift : Int)
  | probabilityStrained
  | entropyMoved (shift : Int)
  | timeMoved (shift : Int)
  | kernelOpened
  | entropyRooted
  | voidManifested
  | quantumAligned
  | paradoxEngaged
  | nothingActed
  | allCast
deriving Repr, DecidableEq

namespace Account

def byPercent (start up down : String) (shift : Int) : String :=
  start ++ (if 0 < shift then up else down) ++ " by " ++
    Number.naturalString shift.natAbs ++ "%."

def message : Account → String
  | energyMoved shift => byPercent "Energy level " "increased" "decreased" shift
  | probabilityMoved shift => byPercent "Probability " "increased" "decreased" shift
  | probabilityStrained =>
    "Probability shifted drastically. Reality struggles to compensate."
  | entropyMoved shift => byPercent "Entropy level " "increased" "decreased" shift
  | timeMoved shift => byPercent "Time flow " "accelerated" "decelerated" shift
  | kernelOpened =>
    "KERNEL ACCESS GRANTED: Spatial parameters reconfigured beyond normal limits."
  | entropyRooted => "ROOT ACCESS: Fundamental entropic constants modified."
  | voidManifested => "VOID MANIFESTATION: Energy created from quantum fluctuations."
  | quantumAligned =>
    "QUANTUM STATE ALIGNED: Probability wave functions collapsed to desired outcome."
  | paradoxEngaged => "PARADOX ENGINE ENGAGED: Contradictory states now coexisting."
  | nothingActed => "Hidden protocol recognized, but effect is subtle."
  | allCast => "Spell cast successfully! Reality shifts to your will."

end Account

structure Verdict where
  success : Bool
  message : String
  feedback : Option Feedback
deriving Repr, DecidableEq

namespace Verdict

def accepted (account : Account) : Verdict :=
  ⟨true, account.message, none⟩

def refused (refusal : Refusal) : Verdict :=
  ⟨false, refusal.message, some refusal.feedback⟩

end Verdict

end Spellcraft
