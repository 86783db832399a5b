import Spellcraft.Caster
import Spellcraft.Json.Slot

set_option autoImplicit false

namespace Spellcraft

/-- Named fields. Of each, none is unreadable, and an inner none is not given. -/
structure FieldSource where
  word : String → Option (Option UInt32)
  time : String → Option (Option UInt64)
  real : String → Option (Option Float)

namespace Json

def Slot.value? : Slot → Option Json
  | .given value => some value
  | .missing | .cut => none

def readGiven {α : Type} (read : Json → Option α) (value : Option Json) : Option (Option α) :=
  match value with
  | none => some none
  | some value => (read value).map some

def fieldSource? (names : List String) (json : Json) : Option FieldSource :=
  (json.slots? names).map fun slots =>
    let value := fun name => ((names.zip slots).lookup name).bind Slot.value?
    { word := fun name => readGiven natural32? (value name)
      time := fun name => readGiven natural64? (value name)
      real := fun name => readGiven real? (value name) }

end Json

namespace Laws

def fields (laws : Laws) : List (String × Json) := [
  ("max_safe_shift", .natural32 laws.maxSafeShift),
  ("energy_ceiling", .real laws.energyCeiling),
  ("entropy_ceiling", .real laws.entropyCeiling),
  ("privileged_entropy_ceiling", .real laws.privilegedEntropyCeiling),
  ("max_time_multiplier", .real laws.maxTimeMultiplier),
  ("time_normal_min", .real laws.normalTimeMin),
  ("time_normal_max", .real laws.normalTimeMax),
  ("probability_limit", .real laws.probabilityLimit),
  ("probability_correction_delay_ms", .natural laws.probabilityCorrectionDelay),
  ("time_normalization_delay_ms", .natural laws.timeNormalizationDelay),
  ("energy_effect_ms", .natural laws.energyDuration),
  ("probability_effect_ms", .natural laws.probabilityDuration),
  ("entropy_effect_ms", .natural laws.entropyDuration),
  ("time_effect_ms", .natural laws.timeDuration),
  ("kernel_effect_ms", .natural laws.kernelDuration),
  ("paradox_fast_speed", .real laws.paradoxFastSpeed),
  ("paradox_slow_speed", .real laws.paradoxSlowSpeed)]

def toJson (laws : Laws) : Json :=
  .object laws.fields

def names : List String :=
  ({} : Laws).fields.map Prod.fst

def ofSource? (source : FieldSource) : Option Laws := do
  let usual : Laws := {}
  return {
    maxSafeShift := (← source.word "max_safe_shift").getD usual.maxSafeShift
    energyCeiling := (← source.real "energy_ceiling").getD usual.energyCeiling
    entropyCeiling := (← source.real "entropy_ceiling").getD usual.entropyCeiling
    privilegedEntropyCeiling :=
      (← source.real "privileged_entropy_ceiling").getD usual.privilegedEntropyCeiling
    maxTimeMultiplier := (← source.real "max_time_multiplier").getD usual.maxTimeMultiplier
    normalTimeMin := (← source.real "time_normal_min").getD usual.normalTimeMin
    normalTimeMax := (← source.real "time_normal_max").getD usual.normalTimeMax
    probabilityLimit := (← source.real "probability_limit").getD usual.probabilityLimit
    probabilityCorrectionDelay :=
      (← source.time "probability_correction_delay_ms").getD usual.probabilityCorrectionDelay
    timeNormalizationDelay :=
      (← source.time "time_normalization_delay_ms").getD usual.timeNormalizationDelay
    energyDuration := (← source.time "energy_effect_ms").getD usual.energyDuration
    probabilityDuration :=
      (← source.time "probability_effect_ms").getD usual.probabilityDuration
    entropyDuration := (← source.time "entropy_effect_ms").getD usual.entropyDuration
    timeDuration := (← source.time "time_effect_ms").getD usual.timeDuration
    kernelDuration := (← source.time "kernel_effect_ms").getD usual.kernelDuration
    paradoxFastSpeed := (← source.real "paradox_fast_speed").getD usual.paradoxFastSpeed
    paradoxSlowSpeed := (← source.real "paradox_slow_speed").getD usual.paradoxSlowSpeed }

def ofJson? (json : Json) : Option Laws :=
  (json.fieldSource? names).bind ofSource?

end Laws

namespace Rates

def fields (rates : Rates) : List (String × Json) := [
  ("energy_rate", .real rates.energyRate),
  ("probability_rate", .real rates.probabilityRate),
  ("entropy_rate", .real rates.entropyRate),
  ("time_rate", .real rates.timeRate),
  ("object_factor", .real rates.objectFactor),
  ("zone_base", .real rates.zoneBase),
  ("zone_per_radius", .real rates.zonePerRadius),
  ("default_radius", .real rates.defaultRadius),
  ("discount_factor", .real rates.discountFactor),
  ("surcharge_factor", .real rates.surchargeFactor),
  ("minimum", .natural32 rates.minimum)]

def toJson (rates : Rates) : Json :=
  .object rates.fields

def names : List String :=
  ({} : Rates).fields.map Prod.fst

def ofSource? (source : FieldSource) : Option Rates := do
  let usual : Rates := {}
  return {
    energyRate := (← source.real "energy_rate").getD usual.energyRate
    probabilityRate := (← source.real "probability_rate").getD usual.probabilityRate
    entropyRate := (← source.real "entropy_rate").getD usual.entropyRate
    timeRate := (← source.real "time_rate").getD usual.timeRate
    objectFactor := (← source.real "object_factor").getD usual.objectFactor
    zoneBase := (← source.real "zone_base").getD usual.zoneBase
    zonePerRadius := (← source.real "zone_per_radius").getD usual.zonePerRadius
    defaultRadius := (← source.real "default_radius").getD usual.defaultRadius
    discountFactor := (← source.real "discount_factor").getD usual.discountFactor
    surchargeFactor := (← source.real "surcharge_factor").getD usual.surchargeFactor
    minimum := (← source.word "minimum").getD usual.minimum }

def ofJson? (json : Json) : Option Rates :=
  (json.fieldSource? names).bind ofSource?

end Rates

namespace Limits

def fields (limits : Limits) : List (String × Json) := [
  ("capacity", .natural32 limits.capacity),
  ("initial", .natural32 limits.initial),
  ("regen_step", .natural32 limits.regenStep)]

def toJson (limits : Limits) : Json :=
  .object limits.fields

def names : List String :=
  ({} : Limits).fields.map Prod.fst

def ofSource? (source : FieldSource) : Option Limits := do
  let usual : Limits := {}
  return {
    capacity := (← source.word "capacity").getD usual.capacity
    initial := (← source.word "initial").getD usual.initial
    regenStep := (← source.word "regen_step").getD usual.regenStep }

def ofJson? (json : Json) : Option Limits :=
  (json.fieldSource? names).bind ofSource?

end Limits

namespace Settings

def names : List String :=
  ["engine", "cost", "ledger"]

def toJson (settings : Settings) : Json :=
  .object [
    ("engine", settings.laws.toJson),
    ("cost", settings.rates.toJson),
    ("ledger", settings.limits.toJson)]

def ofJson? (json : Json) : Option Settings := do
  match ← json.slots? names with
  | [laws, rates, limits] =>
    return {
      laws := ← laws.withDefault {} Laws.ofJson?
      rates := ← rates.withDefault {} Rates.ofJson?
      limits := ← limits.withDefault {} Limits.ofJson? }
  | _ => none

end Settings

end Spellcraft
