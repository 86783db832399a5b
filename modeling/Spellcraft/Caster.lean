import Spellcraft.Engine
import Spellcraft.Ledger
import Spellcraft.Pricing
import Spellcraft.Script.Reader

set_option autoImplicit false

namespace Spellcraft

structure Settings where
  laws : Laws := {}
  rates : Rates := {}
  limits : Limits := {}
deriving DecidableEq

structure Compiled where
  spells : List Spell
  cost : UInt32
deriving DecidableEq

structure CastReport where
  verdict : Verdict
  cost : UInt32
  energy : UInt32
deriving Repr, DecidableEq

structure Caster where
  engine : Engine
  ledger : Ledger
  rates : Rates

namespace Caster

def new (settings : Settings) (ids : IdSupply) : Caster where
  engine := .new settings.laws ids
  ledger := .new settings.limits
  rates := settings.rates

def compile (caster : Caster) (script : String) : Except ScriptError (Compiled × Caster) := do
  let spells ← Spell.ofScript script
  let cost := caster.rates.price spells
  -- The sum of the declared costs is left out. It is only noted where it differs from the price,
  -- but it is of 32 bits, and where overflow is checked a larger one is a fault.
  return (⟨spells, cost⟩, { caster with ledger := caster.ledger.noteDraft cost })

def castCompiled (caster : Caster) (now : UInt64) (compiled : Compiled) :
    Except Fault (CastReport × Caster) :=
  let energy := caster.ledger.energy
  if caster.ledger.affords compiled.cost then do
    let (verdict, engine) ← Engine.cast now compiled.spells caster.engine
    let ledger :=
      if verdict.success then caster.ledger.spend compiled.cost else caster.ledger
    return (⟨verdict, compiled.cost, ledger.energy⟩,
      { caster with ledger, engine := engine.clearLog })
  else
    .ok (⟨.refused (.unaffordable compiled.cost energy), compiled.cost, energy⟩, caster)

def cast (caster : Caster) (now : UInt64) (script : String) :
    Except Fault (Except ScriptError CastReport × Caster) :=
  match caster.compile script with
  | .error error => .ok (.error error, caster)
  | .ok (compiled, noted) => do
    let (report, caster) ← noted.castCompiled now compiled
    return (.ok report, caster)

def regenerate (caster : Caster) : Caster :=
  { caster with ledger := caster.ledger.regenerate }

def tick (caster : Caster) (now : UInt64) : Except Fault (Nat × Caster) := do
  let (count, engine) ← caster.engine.tick now
  return (count, { caster with engine := engine.clearLog })

def override (caster : Caster) (focus : Focus) (value : Float) : Float × Caster :=
  let (held, engine) := caster.engine.override focus value
  (held, { caster with engine })

def setDimensions (caster : Caster) (dimensions : Dimensions) : Caster :=
  { caster with engine := caster.engine.setDimensions dimensions }

end Caster

end Spellcraft
