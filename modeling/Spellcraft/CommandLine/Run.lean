import Spellcraft.CommandLine.Arguments
import Spellcraft.CommandLine.Files
import Spellcraft.CommandLine.Input
import Spellcraft.CommandLine.Report
import Spellcraft.Terminal
import Spellcraft.Wire.Session
import Spellcraft.Wire.SettingsFile

set_option autoImplicit false

namespace Spellcraft.CommandLine

structure World where
  files : Files
  input : Input
  clock : Nat → UInt64
  ids : IdSupply
  phenomenonIds : IdSupply

structure Ending where
  status : UInt32
  printed : String
  failure : Option String
  files : Files

inductive Stop where
  | failed (message : String)
  | broken (fault : Fault)
  | misused

abbrev Stopped := String × Stop

def Stop.status : Stop → UInt32
  | failed _ => 1
  | misused => 2
  | broken _ => 101

def Stop.failure? : Stop → Option String
  | failed message => some ("Error: " ++ message)
  | misused | broken _ => none

def Ending.early (files : Files) (stopped : Stopped) : Ending :=
  ⟨stopped.2.status, stopped.1, stopped.2.failure?, files⟩

structure Closing where
  printed : String
  session : Option (String × String)

def saveFailure (path : String) : Stop :=
  .failed ("saving session " ++ path)

def Closing.ending (closing : Closing) (files : Files) : Ending :=
  match closing.session with
  | none => ⟨0, closing.printed, none, files⟩
  | some (path, text) =>
    match files.write path text.toUTF8 with
    | (written, true) => ⟨0, closing.printed, none, written⟩
    | (left, false) => .early left (closing.printed, saveFailure path)

def loadSettings (files : Files) : Option String → Except Stop Settings
  | none => .ok {}
  | some path =>
    match Settings.load path (files.read? path) with
    | .ok settings => .ok settings
    | .error _ => .error (.failed ("loading config " ++ path))

-- A hyphen names all of the input.
def readScript (files : Files) (input : Input) (name : String) : Except Stop (String × Input) :=
  if name = "-" then
    match input.text with
    | .ok script => .ok (script, .empty)
    | .error message => .error (.failed message)
  else
    match files.readText? name with
    | some script => .ok (script, input)
    | none => .error (.failed ("reading script " ++ name))

def restoreSession (files : Files) (path : String) : Option Session :=
  match (files.readText? path).bind Snapshot.ofFileText? with
  | none => none
  | some snapshot => snapshot.restore.toOption

/-- The caster kept at a path if there is one, a new one otherwise. -/
def openSession (world : World) (settings : Settings) :
    Option String → Except Stop Caster
  | none => .ok (.new settings world.ids)
  | some path =>
    if world.files.has path then
      match restoreSession world.files path with
      | none => .error (.failed ("restoring session " ++ path))
      | some session =>
        match Caster.resume settings world.ids (world.clock 0) session with
        | .ok caster => .ok caster
        | .error fault => .error (.broken fault)
    else .ok (.new settings world.ids)

def keepSession (now : UInt64) (caster : Caster) (path : Option String) :
    Option (String × String) :=
  path.map fun path => (path, (Snapshot.capture caster.session now).fileText)

structure Progress where
  caster : Caster
  chronicle : Chronicle
  input : Input
  printed : String

def reportCast (progress : Progress) (caller name script : String) (now : UInt64)
    (report : CastReport) : Except Stopped Progress :=
  let printed := progress.printed ++ castLine name report
  match progress.chronicle.recordCast caller script report.cost now with
  | none => .error (printed, .failed Chronicle.emptySpellMessage)
  | some (fresh, recorded) =>
    let chronicle :=
      match report.verdict.feedback with
      | some feedback => recorded.recordFeedback feedback none now
      | none => recorded
    .ok { progress with chronicle, printed := printed ++ discoveryLine fresh }

-- A script that cannot be read as spells is only mentioned.
def castInput (files : Files) (caller : String) (now : UInt64) (progress : Progress)
    (name : String) : Except Stopped Progress :=
  match readScript files progress.input name with
  | .error stop => .error (progress.printed, stop)
  | .ok (script, input) =>
    match progress.caster.cast now script with
    | .error fault => .error (progress.printed, .broken fault)
    | .ok (.error error, caster) =>
      .ok { progress with
        caster, input
        printed := progress.printed ++ "[" ++ name ++ "] Spell error: " ++ error.message ++ "\n" }
    | .ok (.ok report, caster) =>
      reportCast { progress with caster, input } caller name script now report

def castInputs (files : Files) (caller : String) (clock : Nat → UInt64) :
    Nat → List String → Progress → Except Stopped Progress
  | _, [], progress => .ok progress
  | index, name :: others, progress =>
    match castInput files caller (clock index) progress name with
    | .error stopped => .error stopped
    | .ok progress => castInputs files caller clock (index + 1) others progress

def castAll (world : World) (settings : Settings) (names : List String)
    (session : Option String) (caller : String) : Except Stopped Closing := do
  match openSession world settings session with
  | .error stop => .error ("", stop)
  | .ok opened =>
    let start : Progress := ⟨opened, .new world.phenomenonIds, world.input, ""⟩
    let progress ← castInputs world.files caller world.clock 1 names start
    return {
      printed := progress.printed ++ Scrying.summary progress.caster.engine.reality ++ "\n"
      session := keepSession (world.clock (names.length + 1)) progress.caster session }

def prompt : String := "> "

def terminalLines (clock : Nat → UInt64) :
    Nat → List (Except String String) → Terminal → String → Except Stopped (String × Caster)
  | _, [], terminal, printed => .ok (printed ++ prompt, terminal.caster)
  | _, .error message :: _, _, printed => .error (printed ++ prompt, .failed message)
  | index, .ok line :: others, terminal, printed =>
    let prompted := printed ++ prompt
    match terminal.handle (clock index) line with
    | .error fault => .error (prompted, .broken fault)
    | .ok (.quit, terminal) => .ok (prompted, terminal.caster)
    | .ok (.silent, terminal) => terminalLines clock (index + 1) others terminal prompted
    | .ok (.print text, terminal) =>
      terminalLines clock (index + 1) others terminal (prompted ++ text ++ "\n")

def openTerminal (world : World) (settings : Settings) (session : Option String)
    (caller : String) : Except Stop Terminal := do
  let caster ← openSession world settings session
  return .new caster (.new world.phenomenonIds) caller

def terminalRun (world : World) (settings : Settings) (session : Option String)
    (caller : String) : Except Stopped Closing := do
  match openTerminal world settings session caller with
  | .error stop => .error ("", stop)
  | .ok terminal =>
    let lines := world.input.lines
    let (printed, caster) ←
      terminalLines world.clock 1 lines terminal (Terminal.greeting ++ "\n")
    return ⟨printed, keepSession (world.clock (lines.length + 1)) caster session⟩

def printSpells (world : World) (name : String) (print : List Spell → String) :
    Except Stopped Closing :=
  match readScript world.files world.input name with
  | .error stop => .error ("", stop)
  | .ok (script, _) =>
    match Spell.ofScript script with
    | .error error => .error ("", .failed error.message)
    | .ok spells => .ok ⟨print spells, none⟩

def act (world : World) (settings : Settings) : Action → Except Stopped Closing
  | .info => .ok ⟨infoText, none⟩
  | .parse input asJson => printSpells world input (if asJson then spellsJson else spellLines)
  | .cost input => printSpells world input (costLines settings.rates)
  | .cast inputs session caller => castAll world settings inputs session caller
  | .terminal session caller => terminalRun world settings session caller

def attempt (world : World) (arguments : List String) : Except Stopped Closing :=
  match Arguments.read arguments with
  | none => .error ("", .misused)
  | some arguments =>
    match loadSettings world.files arguments.config with
    | .error stop => .error ("", stop)
    | .ok settings => act world settings arguments.action

def run (world : World) (arguments : List String) : Ending :=
  match attempt world arguments with
  | .ok closing => closing.ending world.files
  | .error stopped => .early world.files stopped

end Spellcraft.CommandLine
