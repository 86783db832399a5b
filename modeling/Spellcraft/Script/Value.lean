import Spellcraft.Script.Clause

set_option autoImplicit false

namespace Spellcraft.Script

def readFocus (value : List Char) : Except ScriptError Focus :=
  match Focus.ofName? (String.ofList value) with
  | some focus => .ok focus
  | none => .error (.invalidFocus (String.ofList value))

def isAsciiLetter (c : Char) : Bool :=
  c.isAlpha

def parameter? (pair : List Char) : Option Parameter :=
  match Text.cut? ':' pair with
  | none => none
  | some (key, raw) =>
    let key := Text.trim key
    let raw := Text.trim raw
    if key.isEmpty || raw.isEmpty then none
    else some (String.ofList key, ParameterValue.ofText raw)

def readParameters (inner : List Char) : Parameters :=
  Parameters.ofList ((inner.splitOn ',').filterMap parameter?)

def parenthesised? (text : List Char) : Option (List Char) :=
  (Text.after? ['('] text).bind (Text.before? [')'])

def readAnchor (value : List Char) : Except ScriptError Anchor :=
  let name := value.takeWhile isAsciiLetter
  if name.isEmpty then .error (.malformedAnchor (String.ofList value))
  else
    match AnchorKind.ofName? (String.ofList name) with
    | none => .error (.invalidAnchorKind (String.ofList name))
    | some kind =>
      let rest := Text.trim (value.dropWhile isAsciiLetter)
      if rest.isEmpty then .ok (.ofKind kind)
      else
        match parenthesised? rest with
        | none => .error (.malformedAnchor (String.ofList value))
        | some inner => .ok ⟨kind, readParameters inner⟩

def shift? : List Char → Option Shift
  | [] => none
  | sign :: rest =>
    match Direction.ofSign? sign, (Text.before? ['%'] rest).bind Number.word32? with
    | some direction, some amount => some ⟨direction, amount⟩
    | _, _ => none

def readShift (value : List Char) : Except ScriptError Shift :=
  match shift? value with
  | some shift => .ok shift
  | none => .error (.malformedShift (String.ofList value))

def readCost (value : List Char) : Except ScriptError UInt32 :=
  match (Text.before? ['E'] value).bind Number.word32? with
  | some cost => .ok cost
  | none => .error (.malformedCost (String.ofList value))

def quoted? (value : List Char) : Option (List Char) :=
  ((Text.after? ['"'] value).bind (Text.cut? '"')).map Prod.fst

def readIntent (value : List Char) : Except ScriptError String :=
  match quoted? value with
  | none => .error (.malformedIntent (String.ofList value))
  | some inner =>
    let intent := Text.trim inner
    if intent.isEmpty then .error (.malformedIntent (String.ofList value))
    else .ok (String.ofList intent)

end Spellcraft.Script
