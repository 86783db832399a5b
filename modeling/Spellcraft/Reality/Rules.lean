import Spellcraft.Number.Bounds
import Spellcraft.Reality.Laws
import Spellcraft.Reality.State
import Spellcraft.Reality.Verdict
import Spellcraft.Spell.Spell
import Spellcraft.Timeline

set_option autoImplicit false

namespace Spellcraft

structure EffectPlan where
  kind : EffectKind
  shift : Int64
  duration : UInt64
  intensity : Float
deriving DecidableEq

structure Outcome where
  verdict : Verdict
  effect : Option EffectPlan
  -- Delays and tasks.
  deferred : List (UInt64 × Task)
deriving DecidableEq

namespace Outcome

def refuse (refusal : Refusal) : Outcome :=
  ⟨.refused refusal, none, []⟩

def grant (account : Account) : Outcome :=
  ⟨.accepted account, none, []⟩

def withEffect (outcome : Outcome) (kind : EffectKind) (shift : Int) (duration : UInt64) :
    Outcome :=
  let intensity := Number.ofNatural shift.natAbs / 100.0
  { outcome with effect := some ⟨kind, Int64.ofInt shift, duration, intensity⟩ }

def defer (outcome : Outcome) (delay : UInt64) (task : Task) : Outcome :=
  { outcome with deferred := outcome.deferred ++ [(delay, task)] }

end Outcome

namespace Reality

def castEnergy (laws : Laws) (shift : Int) (reality : Reality) : Outcome × Reality :=
  let next := reality.energy + Number.ofInteger shift
  if next < 0.0 then (.refuse .energyBelowZero, reality)
  else
    ((Outcome.grant (.energyMoved shift)).withEffect (.ofFocus .energy) shift laws.energyDuration,
      { reality with energy := Number.least next laws.energyCeiling })

def castProbability (laws : Laws) (shift : Int) (reality : Reality) : Outcome × Reality :=
  let next := reality.probability + Number.ofInteger shift
  let outcome :=
    if laws.probabilityLimit < next.abs then
      (Outcome.grant .probabilityStrained).defer laws.probabilityCorrectionDelay .halveProbability
    else Outcome.grant (.probabilityMoved shift)
  (outcome.withEffect (.ofFocus .probability) shift laws.probabilityDuration,
    { reality with probability := next })

def castEntropy (laws : Laws) (shift : Int) (reality : Reality) : Outcome × Reality :=
  let next := reality.entropy + Number.ofInteger shift
  if next < 0.0 then (.refuse .entropyBelowZero, reality)
  else if laws.entropyCeiling < next then (.refuse .entropyUnstable, reality)
  else
    ((Outcome.grant (.entropyMoved shift)).withEffect (.ofFocus .entropy) shift
        laws.entropyDuration,
      { reality with entropy := next })

def castTime (laws : Laws) (shift : Int) (reality : Reality) : Outcome × Reality :=
  let multiplier := 1.0 + Number.ofInteger shift / 100.0
  if multiplier ≤ 0.0 then (.refuse .timeHalted, reality)
  else if laws.maxTimeMultiplier < multiplier then (.refuse .timeTooFast, reality)
  else
    (((Outcome.grant (.timeMoved shift)).withEffect (.ofFocus .time) shift
        laws.timeDuration).defer laws.timeNormalizationDelay .normalizeTime,
      { reality with timeSpeed := multiplier })

def confine? (low high x : Float) : Except Fault Float :=
  if low ≤ high then .ok (Number.confine low high x) else .error (.emptyRange low high)

def openKernel (laws : Laws) (shift : Int) : Outcome :=
  let intensity := Number.ofNatural shift.natAbs / 50.0
  { Outcome.grant .kernelOpened with
    effect := some ⟨.kernelSpace, Int64.ofInt (shift * 2), laws.kernelDuration, intensity⟩ }

/-- A privileged spell is never refused, and only one of its keywords acts. -/
def castPrivileged (laws : Laws) (keyword : Option Keyword) (shift : Int) (reality : Reality) :
    Except Fault (Outcome × Reality) :=
  match keyword with
  | some .kernelSpace => .ok (openKernel laws shift, reality)
  | some .rootEntropy => do
    let entropy ← confine? 0.0 laws.privilegedEntropyCeiling
      (reality.entropy + Number.ofInteger shift)
    return (.grant .entropyRooted, { reality with entropy })
  | some .voidManifest =>
    .ok (.grant .voidManifested,
      { reality with
        energy := reality.energy + Number.ofNatural shift.natAbs
        probability := reality.probability + Number.ofInteger (shift * 2) })
  | some .quantumSuperposition =>
    .ok (.grant .quantumAligned, { reality with probability := Number.ofInteger (shift * 3) })
  | some .paradoxEngine =>
    let timeSpeed := if 0 < shift then laws.paradoxFastSpeed else laws.paradoxSlowSpeed
    .ok (.grant .paradoxEngaged, { reality with timeSpeed })
  | none => .ok (.grant .nothingActed, reality)

def castPlain (laws : Laws) (focus : Focus) (shift : Int) (reality : Reality) :
    Outcome × Reality :=
  if laws.maxSafeShift.toNat < shift.natAbs then (.refuse .unsafeShift, reality)
  else
    match focus with
    | .energy => castEnergy laws shift reality
    | .probability => castProbability laws shift reality
    | .entropy => castEntropy laws shift reality
    | .time => castTime laws shift reality

def cast (laws : Laws) (spell : Spell) (reality : Reality) : Except Fault (Outcome × Reality) :=
  let aimed := { reality with lastFocus := some spell.focus }
  let shift := spell.shift.signed
  if spell.isPrivileged then castPrivileged laws (Keyword.chosen? spell.keywords) shift aimed
  else .ok (castPlain laws spell.focus shift aimed)

end Reality

end Spellcraft
