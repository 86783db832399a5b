import Spellcraft.Json.Reader
import Spellcraft.Wire.Settings
import Spellcraft.Yaml.Document
import Spellcraft.Yaml.Number

set_option autoImplicit false

namespace Spellcraft

namespace Yaml

def entries? : Yaml → Option (List (Yaml × Yaml))
  | .mapping entries => some entries
  | .scalar .plain _ [] => some []
  | _ => none

def scalarText? : Yaml → Option String
  | .scalar _ _ text => some (String.ofList text)
  | _ => none

namespace Document

/-- Keys are scalars, and none of the known names is given twice. -/
def fields? (document : Document) (names : List String) (node : Yaml) :
    Option (List (String × Yaml)) :=
  match (document.resolve node).entries? with
  | none => none
  | some entries =>
    let named := entries.mapM fun (key, value) =>
      (document.resolve key).scalarText?.map fun name => (name, value)
    named.filter fun fields =>
      !Json.repeats ((fields.map Prod.fst).filter names.contains)

def readGiven {α : Type} (document : Document) (read : Yaml → Option α) :
    Option Yaml → Option (Option α)
  | none => some none
  | some value => (read (document.resolve value)).map some

def fieldSource? (document : Document) (names : List String) (node : Yaml) :
    Option FieldSource :=
  (document.fields? names node).map fun fields =>
    { word := fun name => document.readGiven natural32? (fields.lookup name)
      time := fun name => document.readGiven natural64? (fields.lookup name)
      real := fun name => document.readGiven number? (fields.lookup name) }

def section? {α : Type} (document : Document) (names : List String)
    (ofSource? : FieldSource → Option α) (default : α) : Option Yaml → Option α
  | none => some default
  | some node => (document.fieldSource? names node).bind ofSource?

end Document

end Yaml

namespace Settings

def ofYaml? (document : Yaml.Document) : Option Settings := do
  let fields ← document.fields? names document.root
  return {
    laws := ← document.section? Laws.names Laws.ofSource? {} (fields.lookup "engine")
    rates := ← document.section? Rates.names Rates.ofSource? {} (fields.lookup "cost")
    limits := ← document.section? Limits.names Limits.ofSource? {} (fields.lookup "ledger") }

inductive LoadError where
  | unreadable
  | malformedJson
  | malformedYaml
  | unsupportedFormat (path : String)
deriving Repr, DecidableEq

def LoadError.message : LoadError → String
  | .unreadable => "IO error"
  | .malformedJson => "JSON error"
  | .malformedYaml => "YAML error"
  | .unsupportedFormat path =>
    "unsupported config format `" ++ path ++ "`: expected .json, .yaml or .yml"

def fileName (path : List Char) : List Char :=
  let trimmed := (path.reverse.dropWhile (· == '/')).reverse
  (trimmed.splitOn '/').getLastD []

/-- What stands behind the last point of a name, unless the name starts with it. -/
def ending (name : List Char) : List Char :=
  let reversed := name.reverse
  let behind := (reversed.takeWhile (· != '.')).reverse
  if behind.length + 1 < name.length then behind else []

inductive Format where
  | json
  | yaml
deriving Repr, DecidableEq

def format? (path : String) : Option Format :=
  let ending := String.ofList ((ending (fileName path.toList)).map Char.toLower)
  if ending = "json" then some .json
  else if ending = "yaml" ∨ ending = "yml" then some .yaml
  else none

def load (path : String) (contents : Option ByteArray) : Except LoadError Settings :=
  match contents.bind String.fromUTF8? with
  | none => .error .unreadable
  | some text =>
    match format? path with
    | none => .error (.unsupportedFormat path)
    | some .json =>
      match (Json.parse? text.toList).bind ofJson? with
      | some settings => .ok settings
      | none => .error .malformedJson
    | some .yaml =>
      match (Yaml.Document.ofText? text.toList).bind ofYaml? with
      | some settings => .ok settings
      | none => .error .malformedYaml

end Settings

end Spellcraft
