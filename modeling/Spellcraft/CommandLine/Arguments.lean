set_option autoImplicit false

namespace Spellcraft.CommandLine

structure OptionSpec where
  long : String
  short : Option Char
  takesValue : Bool
  -- The value is a path, which is not empty.
  isPath : Bool

def verboseOption : OptionSpec := ⟨"verbose", some 'v', false, false⟩
def configOption : OptionSpec := ⟨"config", some 'c', true, true⟩
def sessionOption : OptionSpec := ⟨"session", some 's', true, true⟩
def callerOption : OptionSpec := ⟨"caller", none, true, false⟩
def jsonOption : OptionSpec := ⟨"json", none, false, false⟩

structure Given where
  options : List (String × String)
  others : List String

def Given.none : Given :=
  ⟨[], []⟩

def Given.value? (given : Given) (option : OptionSpec) : Option String :=
  given.options.lookup option.long

def Given.add (given : Given) (option : OptionSpec) (value : String) : Option Given :=
  if (given.value? option).isSome || (option.isPath && value.isEmpty) then Option.none
  else some { given with options := given.options ++ [(option.long, value)] }

def Given.addOther (given : Given) (argument : String) : Given :=
  { given with others := given.others ++ [argument] }

def isOption (argument : String) : Bool :=
  match argument.toList with
  | '-' :: _ :: _ => true
  | _ => false

structure Cluster where
  complete : List (OptionSpec × String)
  open? : Option OptionSpec

def readLong (specs : List OptionSpec) (text : List Char) : Option Cluster :=
  let name := text.takeWhile (· != '=')
  match specs.find? (·.long.toList == name), text.dropWhile (· != '=') with
  | some spec, [] =>
    some (if spec.takesValue then ⟨[], some spec⟩ else ⟨[(spec, "")], none⟩)
  | some spec, _ :: value =>
    if spec.takesValue then some ⟨[(spec, String.ofList value)], none⟩ else none
  | none, _ => none

def readShort (specs : List OptionSpec) : List Char → Option Cluster
  | [] => some ⟨[], none⟩
  | letter :: rest =>
    match specs.find? (·.short == some letter) with
    | none => none
    | some spec =>
      if spec.takesValue then
        match rest with
        | [] => some ⟨[], some spec⟩
        | '=' :: value => some ⟨[(spec, String.ofList value)], none⟩
        | value => some ⟨[(spec, String.ofList value)], none⟩
      else
        (readShort specs rest).map fun cluster =>
          { cluster with complete := (spec, "") :: cluster.complete }

def readOption (specs : List OptionSpec) (argument : String) : Option Cluster :=
  match argument.toList with
  | '-' :: '-' :: text => readLong specs text
  | '-' :: text => readShort specs text
  | _ => none

def Given.addAll (given : Given) (options : List (OptionSpec × String)) : Option Given :=
  options.foldlM (fun given (option, value) => given.add option value) given

def readLeading (specs : List OptionSpec) :
    List String → Given → Option (Given × List String)
  | [], given => some (given, [])
  | argument :: rest, given =>
    if isOption argument then
      match readOption specs argument with
      | none => none
      | some cluster =>
        match given.addAll cluster.complete, cluster.open?, rest with
        | some given, none, rest => readLeading specs rest given
        | some given, some option, value :: rest =>
          if isOption value then none
          else
            match given.add option value with
            | some given => readLeading specs rest given
            | none => none
        | _, _, _ => none
    else some (given, argument :: rest)

def readAll (specs : List OptionSpec) : List String → Given → Option Given
  | [], given => some given
  | argument :: rest, given =>
    if argument = "--" then some { given with others := given.others ++ rest }
    else if isOption argument then
      match readOption specs argument with
      | none => none
      | some cluster =>
        match given.addAll cluster.complete, cluster.open?, rest with
        | some given, none, rest => readAll specs rest given
        | some given, some option, value :: rest =>
          if isOption value then none
          else
            match given.add option value with
            | some given => readAll specs rest given
            | none => none
        | _, _, _ => none
    else readAll specs rest (given.addOther argument)

inductive Action where
  | info
  | parse (input : String) (asJson : Bool)
  | cost (input : String)
  | cast (inputs : List String) (session : Option String) (caller : String)
  | terminal (session : Option String) (caller : String)
deriving Repr, DecidableEq

structure Arguments where
  config : Option String
  action : Action
deriving Repr, DecidableEq

def defaultCaller : String := "cli"

def Given.caller (given : Given) : String :=
  (given.value? callerOption).getD defaultCaller

def readAction (command : String) (rest : List String) : Option (Action × Option String) :=
  let specs :=
    if command = "parse" then [jsonOption, configOption]
    else if command = "cast" ∨ command = "repl" then
      [sessionOption, callerOption, configOption]
    else [configOption]
  match readAll specs rest .none with
  | none => none
  | some given =>
    let action : Option Action :=
      match command, given.others with
      | "info", [] => some .info
      | "parse", [input] => some (.parse input (given.value? jsonOption).isSome)
      | "cost", [input] => some (.cost input)
      | "cast", first :: others =>
        some (.cast (first :: others) (given.value? sessionOption) given.caller)
      | "repl", [] => some (.terminal (given.value? sessionOption) given.caller)
      | _, _ => none
    action.map fun action => (action, given.value? configOption)

-- The settings file named last counts.
def Arguments.read (arguments : List String) : Option Arguments :=
  match readLeading [verboseOption, configOption] arguments .none with
  | some (given, command :: rest) =>
    (readAction command rest).map fun (action, config) =>
      ⟨config.orElse fun _ => given.value? configOption, action⟩
  | _ => none

def Action.sources : Action → List String
  | .info => []
  | .parse input _ => [input]
  | .cost input => [input]
  | .cast inputs session _ => inputs ++ session.toList
  | .terminal session _ => session.toList

def Arguments.sources (arguments : Arguments) : List String :=
  arguments.config.toList ++ arguments.action.sources

end Spellcraft.CommandLine
