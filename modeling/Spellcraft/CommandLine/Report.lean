import Spellcraft.Caster
import Spellcraft.Json.Writer
import Spellcraft.Text.Quoted
import Spellcraft.Wire.Spell

set_option autoImplicit false

namespace Spellcraft.CommandLine

open Number (naturalString)

def programName : String := "aethercast"

def version : String := "v0.1.0"

def components : List String :=
  ["lang", "ledger", "kernel", "caster", "persist", "mirror", "tools"]

def componentText (component : String) : String :=
  programName ++ "-" ++ component ++ " " ++ version

def infoText : String :=
  programName ++ " " ++ version ++ "\n" ++
    String.join (components.map fun component =>
      component ++ ": " ++ componentText component ++ "\n")

def shiftText (spell : Spell) : String :=
  String.ofList [spell.shift.direction.sign] ++ naturalString spell.shift.amount.toNat ++ "%"

def keywordsText (keywords : List Keyword) : String :=
  "[" ++ String.intercalate ", " (keywords.map Keyword.label) ++ "]"

def spellLine (position : Nat) (spell : Spell) : String :=
  "#" ++ naturalString position ++ " " ++ spell.focus.name ++ " @ " ++
    spell.anchor.kind.name ++ " " ++ shiftText spell ++ " cost=" ++
    naturalString spell.declaredCost.toNat ++ "E intent=" ++ Text.quoted spell.intent ++
    (if spell.isPrivileged then " protocols=" ++ keywordsText spell.keywords else "") ++ "\n"

def spellLines (spells : List Spell) : String :=
  String.join (spells.mapIdx fun index spell => spellLine (index + 1) spell)

def spellsJson (spells : List Spell) : String :=
  String.ofList ((Json.list (spells.map Spell.toJson)).pretty 0) ++ "\n"

def costLine (spell : Spell) (cost : UInt32) : String :=
  spell.focus.name ++ " " ++ shiftText spell ++ ": " ++ naturalString cost.toNat ++
    "E (declared " ++ naturalString spell.declaredCost.toNat ++ "E)\n"

def costLines (rates : Rates) (spells : List Spell) : String :=
  let bill := rates.bill spells
  String.join (List.zipWith costLine spells bill.perSpell) ++
    "Total: " ++ naturalString bill.total.toNat ++ "E\n"

def castLine (name : String) (report : CastReport) : String :=
  "[" ++ name ++ "] " ++ (if report.verdict.success then "ok" else "failed") ++ ": " ++
    report.verdict.message ++ " (cost " ++ naturalString report.cost.toNat ++ "E, energy " ++
    naturalString report.energy.toNat ++ "E)\n"

def discoveryLine (fresh : List Keyword) : String :=
  if fresh.isEmpty then "" else "Discovered: " ++ keywordsText fresh ++ "\n"

end Spellcraft.CommandLine
