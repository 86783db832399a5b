import Spellcraft.CommandLine.Run
import Std.Time.DateTime.Timestamp

set_option autoImplicit false

namespace Spellcraft.Program

open CommandLine

def timeNow : IO UInt64 := do
  let time ← Std.Time.Timestamp.now
  return time.toMillisecondsSinceUnixEpoch.val.toNat.toUInt64

def freshIds : IO IdSupply := do
  let bytes ← IO.getRandomBytes 16
  let seed := bytes.toList.foldl (fun value byte => 256 * value + byte.toNat) 0
  return .ofSeed (BitVec.ofNat 128 seed)

-- What can be opened but not read is taken for a directory.
def gatherFile (files : Files) (path : String) : IO Files := do
  match ← (IO.FS.Handle.mk path .read).toBaseIO with
  | .error _ => return files
  | .ok handle =>
    match ← handle.readBinToEnd.toBaseIO with
    | .error _ => return files.addDirectory path
    | .ok contents => return (files.write path contents).1

partial def readAll (stream : IO.FS.Stream) (bytes : ByteArray) : IO Input := do
  match ← (stream.read 65536).toBaseIO with
  | .error failure => return ⟨bytes, some (toString failure)⟩
  | .ok more => if more.isEmpty then return ⟨bytes, none⟩ else readAll stream (bytes ++ more)

def gatherInput (arguments : Arguments) : IO Input := do
  if arguments.action.sources.contains "-" then readAll (← IO.getStdin) .empty else return .empty

partial def readLine (stream : IO.FS.Stream) (bytes : ByteArray) : IO Input := do
  match ← (stream.read 1).toBaseIO with
  | .error failure => return ⟨bytes, some (toString failure)⟩
  | .ok byte =>
    let bytes := bytes ++ byte
    if byte.isEmpty || byte == ⟨#[10]⟩ then return ⟨bytes, none⟩ else readLine stream bytes

partial def converse (terminal : Terminal) : IO (Except Stop Caster) := do
  IO.print prompt
  (← IO.getStdout).flush
  match (← readLine (← IO.getStdin) .empty).text with
  | .error message => return .error (.failed message)
  | .ok line =>
    if line.isEmpty then return .ok terminal.caster
    match terminal.handle (← timeNow) line with
    | .error fault => return .error (.broken fault)
    | .ok (.quit, terminal) => return .ok terminal.caster
    | .ok (.silent, terminal) => converse terminal
    | .ok (.print text, terminal) =>
      IO.println text
      converse terminal

def terminalClosing (world : World) (settings : Settings) (session : Option String)
    (caller : String) : IO (Except Stopped Closing) := do
  match openTerminal world settings session caller with
  | .error stop => return .error ("", stop)
  | .ok terminal =>
    IO.println Terminal.greeting
    match ← converse terminal with
    | .error stop => return .error ("", stop)
    | .ok caster => return .ok ⟨"", keepSession (← timeNow) caster session⟩

def closing (world : World) (arguments : Arguments) : IO (Except Stopped Closing) :=
  match loadSettings world.files arguments.config with
  | .error stop => return .error ("", stop)
  | .ok settings =>
    match arguments.action with
    | .terminal session caller => terminalClosing world settings session caller
    | action => return act world settings action

def stopWith (stop : Stop) : IO UInt32 := do
  if let some message := stop.failure? then IO.eprintln message
  return stop.status

def writeFile (path : String) (contents : String) : IO Unit := do
  let parent := (pathParts path).dropLast
  unless parent.isEmpty do IO.FS.createDirAll (String.intercalate "/" parent)
  IO.FS.writeFile path contents

def keep : Option (String × String) → IO UInt32
  | none => return 0
  | some (path, contents) => do
    match ← (writeFile path contents).toBaseIO with
    | .ok () => return 0
    | .error _ => stopWith (saveFailure path)

def start (arguments : Arguments) : IO UInt32 := do
  let files ← arguments.sources.foldlM gatherFile .empty
  let input ← gatherInput arguments
  let now ← timeNow
  let world : World := ⟨files, input, fun _ => now, ← freshIds, ← freshIds⟩
  match ← closing world arguments with
  | .error (printed, stop) =>
    IO.print printed
    stopWith stop
  | .ok closing =>
    IO.print closing.printed
    keep closing.session

end Spellcraft.Program

def main (arguments : List String) : IO UInt32 :=
  match Spellcraft.CommandLine.Arguments.read arguments with
  | some arguments => Spellcraft.Program.start arguments
  | none => do
    IO.eprintln "usage: aethercast [options] (info | parse | cost | cast | repl) [arguments]"
    return 2
