import Spellcraft.Caster
import Spellcraft.Chronicle
import Spellcraft.Scrying

set_option autoImplicit false

namespace Spellcraft

inductive Command where
  | nothing
  | quit
  | help
  | scry
  | effects
  | regenerate
  | protocols
  | clear
  | bind
  | castDraft
  | override (focus : Focus) (value : Float)
  | badOverride (focus : Focus)
  | clause (line : List Char)
deriving DecidableEq

namespace Command

def lowerWord (text : List Char) : String :=
  String.ofList (text.map Char.toLower)

def override? (lowered : List Char) : Option Command :=
  match Text.words lowered with
  | parameter :: set :: values =>
    if String.ofList set = "set" then
      let named := fun (focus : Focus) =>
        focus.name.toList.map Char.toLower == parameter
      (Focus.all.find? named).map fun focus =>
        match values with
        | [value] =>
          match (Number.literal? value).filter Number.isFinite with
          | some value => .override focus value
          | none => .badOverride focus
        | _ => .badOverride focus
    else none
  | _ => none

def ofLine (line : List Char) : Command :=
  let trimmed := Text.trim line
  let lowered := trimmed.map Char.toLower
  let word := String.ofList lowered
  if word = "" then nothing
  else if word = "quit" ∨ word = "exit" then quit
  else if word = "help" ∨ word = "?" then help
  else if word = "scry" then scry
  else if word = "effects" then effects
  else if word = "regen" then regenerate
  else if word = "protocols" then protocols
  else if word = "clear" then clear
  else if word = "bind" then bind
  else if word = "seal" then castDraft
  else (override? lowered).getD (clause trimmed)

def helpText : String :=
  "Available commands:\n" ++
  "  scry - View current reality parameters\n" ++
  "  effects - List active effects\n" ++
  "  regen - Regenerate caster energy\n" ++
  "  protocols - List discovered protocols\n" ++
  "  clear - Discard the current draft\n" ++
  "  bind - Chain the draft with another spell\n" ++
  "  seal - Cast the current draft\n" ++
  "  quit - Leave the terminal\n" ++
  "\n" ++
  "Direct manipulation:\n" ++
  "  energy set <0-100>\n" ++
  "  probability set <0-100>\n" ++
  "  entropy set <0-100>\n" ++
  "  time set <0.1-2.0>\n" ++
  "\n" ++
  "Spell components:\n" ++
  "  focus: [Energy|Probability|Entropy|Time]\n" ++
  "  anchor: [Self|Object|Zone(radius:n)]\n" ++
  "  shift: [+|-]n%\n" ++
  "  cost: nE\n" ++
  "  intent: \"Your intention here\""

end Command

inductive Reply where
  | print (text : String)
  | silent
  | quit
deriving Repr, DecidableEq

structure Terminal where
  caster : Caster
  chronicle : Chronicle
  caller : String
  draft : List (List Char)

namespace Terminal

def new (caster : Caster) (chronicle : Chronicle) (caller : String) : Terminal :=
  ⟨caster, chronicle, caller, []⟩

def greeting : String :=
  "aethercast terminal. Type `help` for commands."

def effectsTextWith (label : Scrying.EffectView → String) (terminal : Terminal) (now : UInt64) :
    String :=
  let views := Scrying.effects terminal.caster.engine.reality now
  if views.isEmpty then "No active effects."
  else String.intercalate "\n" (views.map fun view => view.lineAs (label view))

def effectsText (terminal : Terminal) (now : UInt64) : String :=
  terminal.effectsTextWith Scrying.EffectView.shortId now

def protocolsText (terminal : Terminal) : String :=
  let found := terminal.chronicle.discoveries terminal.caller
  let hint := terminal.chronicle.hint terminal.caller
  if found.isEmpty then "No protocols discovered. " ++ hint
  else "Discovered: " ++ String.intercalate ", " (found.map Keyword.name) ++ ". " ++ hint

def overrideText (focus : Focus) (held : Float) : String :=
  let value := String.ofList (Number.plain held)
  match focus with
  | .energy => "Energy level set to " ++ value
  | .probability => "Probability shift set to " ++ value
  | .entropy => "Entropy level set to " ++ value
  | .time => "Time flow set to " ++ value ++ "x"

def usageText (focus : Focus) : String :=
  "Usage: " ++ Command.lowerWord focus.name.toList ++ " set <value>"

def reportText (report : CastReport) (fresh : List Keyword) : String :=
  report.verdict.message ++ "\nCost: " ++ Number.naturalString report.cost.toNat ++
    "E. Energy: " ++ Number.naturalString report.energy.toNat ++ "E." ++
    String.join (fresh.map fun keyword => "\nProtocol discovered: " ++ keyword.name)

def record (chronicle : Chronicle) (caller script : String) (report : CastReport)
    (now : UInt64) : List Keyword × Chronicle :=
  let (fresh, recorded) :=
    (chronicle.recordCast caller script report.cost now).getD ([], chronicle)
  match report.verdict.feedback with
  | some feedback => (fresh, recorded.recordFeedback feedback none now)
  | none => (fresh, recorded)

def castDraft (terminal : Terminal) (now : UInt64) : Except Fault (Reply × Terminal) := do
  let script := String.ofList (Text.joinLines (terminal.draft ++ ["seal".toList]))
  let emptied := { terminal with draft := [] }
  let (result, caster) ← terminal.caster.cast now script
  match result with
  | .error error => return (.print ("Spell error: " ++ error.message), { emptied with caster })
  | .ok report =>
    let (fresh, chronicle) := record terminal.chronicle terminal.caller script report now
    return (.print (reportText report fresh), { emptied with caster, chronicle })

def run (terminal : Terminal) (now : UInt64) : Command → Except Fault (Reply × Terminal)
  | .nothing => .ok (.silent, terminal)
  | .quit => .ok (.quit, terminal)
  | .help => .ok (.print Command.helpText, terminal)
  | .scry => .ok (.print (Scrying.summary terminal.caster.engine.reality), terminal)
  | .effects => .ok (.print (terminal.effectsText now), terminal)
  | .regenerate =>
    let caster := terminal.caster.regenerate
    .ok (.print ("Energy regenerated to " ++ Number.naturalString caster.ledger.energy.toNat ++
      "E."), { terminal with caster })
  | .protocols => .ok (.print terminal.protocolsText, terminal)
  | .clear => .ok (.print "Draft cleared.", { terminal with draft := [] })
  | .bind => .ok (.silent, { terminal with draft := terminal.draft ++ ["bind".toList] })
  | .castDraft => terminal.castDraft now
  | .override focus value =>
    let (held, caster) := terminal.caster.override focus value
    .ok (.print (overrideText focus held), { terminal with caster })
  | .badOverride focus => .ok (.print (usageText focus), terminal)
  | .clause line => .ok (.silent, { terminal with draft := terminal.draft ++ [line] })

-- Answers a line, after whatever has become due in the meantime.
def handle (terminal : Terminal) (now : UInt64) (line : String) :
    Except Fault (Reply × Terminal) := do
  let (_, caster) ← terminal.caster.tick now
  { terminal with caster }.run now (Command.ofLine line.toList)

end Terminal

end Spellcraft
