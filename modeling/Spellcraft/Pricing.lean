import Spellcraft.Number.Bounds
import Spellcraft.Number.Word
import Spellcraft.Spell.Spell

set_option autoImplicit false

namespace Spellcraft

structure Rates where
  energyRate : Float := 0.5
  probabilityRate : Float := 0.8
  entropyRate : Float := 1.0
  timeRate : Float := 1.2
  objectFactor : Float := 1.2
  zoneBase : Float := 1.0
  zonePerRadius : Float := 0.1
  defaultRadius : Float := 1.0
  discountFactor : Float := 0.7
  surchargeFactor : Float := 1.5
  minimum : UInt32 := 1
deriving DecidableEq

structure Bill where
  perSpell : List UInt32
  total : UInt32
deriving Repr, DecidableEq

namespace Rates

def ofFocus (rates : Rates) : Focus → Float
  | .energy => rates.energyRate
  | .probability => rates.probabilityRate
  | .entropy => rates.entropyRate
  | .time => rates.timeRate

def anchorFactor (rates : Rates) (anchor : Anchor) : Float :=
  match anchor.kind with
  | .caster => 1.0
  | .object => rates.objectFactor
  | .zone => rates.zoneBase + rates.zonePerRadius * anchor.radius?.getD rates.defaultRadius

/-- Whole units for a price, rounded up; a price less than `1e-9` above a whole number is charged
as that number. -/
def units (price : Float) : UInt64 :=
  if price.isNaN || price ≤ 0.0 then 0 else Number.wholeAbove (price - 1e-9)

def charge (rates : Rates) (spell : Spell) : UInt64 :=
  units (spell.shift.amount.toFloat * rates.ofFocus spell.focus * rates.anchorFactor spell.anchor)

def discount (rates : Rates) (spell : Spell) (total : UInt64) : UInt64 :=
  if spell.isPrivileged && spell.carries .voidManifest then
    units (total.toFloat * rates.discountFactor)
  else total

def surcharge (rates : Rates) (spell : Spell) (total : UInt64) : UInt64 :=
  if spell.isPrivileged && spell.carries .paradoxEngine then
    units (total.toFloat * rates.surchargeFactor)
  else total

def addSpell (rates : Rates) (total : UInt64) (spell : Spell) : UInt64 :=
  let sum := Number.capped64 (total.toNat + (rates.charge spell).toNat)
  rates.surcharge spell (rates.discount spell sum)

def bill (rates : Rates) (spells : List Spell) : Bill where
  perSpell := spells.map fun spell => Number.capped32 (rates.charge spell).toNat
  total := max (Number.capped32 (spells.foldl rates.addSpell 0).toNat) rates.minimum

def price (rates : Rates) (spells : List Spell) : UInt32 :=
  (rates.bill spells).total

end Rates

end Spellcraft
