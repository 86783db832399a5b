import Spellcraft.Yaml.Tokens

set_option autoImplicit false

namespace Spellcraft.Yaml

structure Assembly where
  tokens : List Token
  handles : List (List Char × List Char)
  -- The numbers of the anchors whose names are in use.
  names : List (List Char × Nat)
  -- For each number the nodes that took it, the last one first.
  takers : List (Nat × Nat)
  nodes : List (Nat × Yaml)

abbrev Assembling := StateT Assembly Option

namespace Assembly

def peek : Assembling Token := do
  return (← get).tokens.headD .streamEnd

def advance : Assembling Unit :=
  modify fun assembly => { assembly with tokens := assembly.tokens.drop 1 }

def pass (token : Token) : Assembling Bool := do
  if (← peek) = token then
    advance
    return true
  else return false

def expect (token : Token) : Assembling Unit := do
  if !(← pass token) then failure

/-- A handle stands for what a directive says. One mark alone and two of them stand for the usual,
unless a directive says otherwise. -/
def resolveTag (tag : TagName) : Assembling (List Char) := do
  match tag.handle with
  | none => return tag.suffix
  | some handle =>
    match (← get).handles.lookup handle with
    | some beginning => return beginning ++ tag.suffix
    | none => failure

structure Properties where
  anchor : Option (List Char)
  tag : Option (List Char)

def readAnchorToken : Assembling (Option (List Char)) := do
  match ← peek with
  | .anchor name =>
    advance
    return some name
  | _ => return none

def readTagToken : Assembling (Option TagName) := do
  match ← peek with
  | .tag name =>
    advance
    return some name
  | _ => return none

def readProperties : Assembling Properties := do
  let first ← readAnchorToken
  let tag ← readTagToken
  let anchor ← if first.isSome then pure first else readAnchorToken
  match tag with
  | none => return ⟨anchor, none⟩
  | some tag => return ⟨anchor, some (← resolveTag tag)⟩

/-- Gives an anchor its number, which is that of the names in use. A name that is in use already
moves to the new number, and leaves the count as it is. -/
def enterAnchor (name : List Char) : Assembling Nat := do
  let assembly ← get
  let number := assembly.names.length
  let taker := assembly.takers.length
  set { assembly with
    names := (name, number) :: assembly.names.filter (·.1 != name)
    takers := (number, taker) :: assembly.takers }
  return taker

def keepAnchored (taker : Nat) (node : Yaml) : Assembling Unit :=
  modify fun assembly => { assembly with nodes := (taker, node) :: assembly.nodes }

def anchored (assembly : Assembly) (number : Nat) : Option Yaml :=
  (assembly.takers.lookup number).bind (assembly.nodes.lookup ·)

def readReference (name : List Char) : Assembling Yaml := do
  match (← get).names.lookup name with
  | some number => return .reference number
  | none => failure

def isLeftOut (ends : List Token) : Assembling Bool := do
  return ends.contains (← peek)

mutual

/-- Reads a node. In brackets there are no blocks, and only as part of an entry can a sequence stand
as far out as what it is part of. -/
def readNode : Nat → Bool → Bool → Assembling Yaml
  | 0, _, _ => failure
  | bound + 1, inBlock, inEntry => do
    match ← peek with
    | .reference name =>
      advance
      readReference name
    | _ =>
      let properties ← readProperties
      match properties.anchor with
      | none => readContent bound inBlock inEntry properties
      | some name =>
        let taker ← enterAnchor name
        let node ← readContent bound inBlock inEntry properties
        keepAnchored taker node
        return node

def readContent : Nat → Bool → Bool → Properties → Assembling Yaml
  | 0, _, _, _ => failure
  | bound + 1, inBlock, inEntry, properties => do
    match ← peek, inBlock, inEntry with
    | .dash, _, true => .sequence <$> readOuterItems bound
    | .scalar style text, _, _ =>
      advance
      return .scalar style properties.tag text
    | .openSequence, _, _ =>
      advance
      .sequence <$> readListed bound true
    | .openMapping, _, _ =>
      advance
      .mapping <$> readFields bound true
    | .blockSequence, true, _ =>
      advance
      .sequence <$> readItems bound
    | .blockMapping, true, _ =>
      advance
      .mapping <$> readEntries bound
    | _, _, _ =>
      if properties.anchor.isSome || properties.tag.isSome then
        return .scalar .plain properties.tag []
      else failure

def readItems : Nat → Assembling (List Yaml)
  | 0 => failure
  | bound + 1 => do
    if ← pass .blockEnd then return []
    expect .dash
    let item ←
      if ← isLeftOut [.dash, .blockEnd] then pure .empty else readNode bound true false
    return item :: (← readItems bound)

def readOuterItems : Nat → Assembling (List Yaml)
  | 0 => failure
  | bound + 1 => do
    if !(← pass .dash) then return []
    let item ←
      if ← isLeftOut [.dash, .key, .value, .blockEnd] then pure .empty
      else readNode bound true false
    return item :: (← readOuterItems bound)

def readEntries : Nat → Assembling (List (Yaml × Yaml))
  | 0 => failure
  | bound + 1 => do
    if ← pass .blockEnd then return []
    expect .key
    let key ← readEntryPart bound
    let value ← if ← pass .value then readEntryPart bound else pure .empty
    return (key, value) :: (← readEntries bound)

def readEntryPart : Nat → Assembling Yaml
  | 0 => failure
  | bound + 1 => do
    if ← isLeftOut [.key, .value, .blockEnd] then return .empty
    readNode bound true true

/-- The items of a sequence in brackets. One that starts with a key is a mapping of one entry. -/
def readListed : Nat → Bool → Assembling (List Yaml)
  | 0, _ => failure
  | bound + 1, isFirst => do
    if ← pass .closeSequence then return []
    if !isFirst then expect .comma
    if ← pass .closeSequence then return []
    let item ← if ← pass .key then readPair bound else readNode bound false false
    return item :: (← readListed bound false)

-- Where a key is left out, the token behind its mark is passed over.
def readPair : Nat → Assembling Yaml
  | 0 => failure
  | bound + 1 => do
    let key ←
      if ← isLeftOut [.value, .comma, .closeSequence] then
        advance
        pure .empty
      else readNode bound false false
    let value ← readFlowValue bound .closeSequence
    return .mapping [(key, value)]

def readFlowValue : Nat → Token → Assembling Yaml
  | 0, _ => failure
  | bound + 1, close => do
    if ← pass .value then
      if ← isLeftOut [.comma, close] then return .empty
      readNode bound false false
    else return .empty

/-- The entries of a mapping in brackets. What has no key mark is a key without a value. -/
def readFields : Nat → Bool → Assembling (List (Yaml × Yaml))
  | 0, _ => failure
  | bound + 1, isFirst => do
    if ← pass .closeMapping then return []
    if !isFirst then expect .comma
    if ← pass .closeMapping then return []
    let field ←
      if ← pass .key then
        let key ←
          if ← isLeftOut [.value, .comma, .closeMapping] then pure .empty
          else readNode bound false false
        pure (key, ← readFlowValue bound .closeMapping)
      else pure (← readNode bound false false, .empty)
    return field :: (← readFields bound false)

end

/-- The directives before a document: at most one version, which is known, and at most one meaning
for a handle. -/
def readDirectives : Nat → Bool → Assembling Unit
  | 0, _ => failure
  | bound + 1, hasVersion => do
    match ← peek with
    | .directive (.version major minor) =>
      advance
      if hasVersion || major != 1 || (minor != 1 && minor != 2) then failure
      readDirectives bound true
    | .directive (.tagHandle handle beginning) =>
      advance
      let assembly ← get
      if (assembly.handles.lookup handle).isSome then failure
      set { assembly with handles := (handle, beginning) :: assembly.handles }
      readDirectives bound hasVersion
    | _ => return ()

def usualHandles : List (List Char × List Char) :=
  [(['!'], ['!']), (['!', '!'], "tag:yaml.org,2002:".toList)]

def addUsualHandles : Assembling Unit :=
  modify fun assembly => { assembly with handles := assembly.handles ++ usualHandles }

def isDirective : Token → Bool
  | .directive _ => true
  | _ => false

def readDocument (bound : Nat) : Assembling Yaml := do
  let next ← peek
  if isDirective next || next = .documentStart then
    readDirectives bound false
    addUsualHandles
    expect .documentStart
    let first ← peek
    if isDirective first || [.documentStart, .documentEnd, .streamEnd].contains first then
      return .empty
    readNode bound true false
  else
    addUsualHandles
    readNode bound true false

def ofTokens (tokens : List Token) : Assembly :=
  ⟨tokens, [], [], [], []⟩

end Assembly

namespace Document

def ofTokens? (tokens : List Token) : Option Document :=
  if tokens = [.streamEnd] then some ⟨.empty, fun _ => none⟩
  else
    match (Assembly.readDocument (4 * tokens.length + 4)).run (.ofTokens tokens) with
    | none => none
    | some (root, assembly) =>
      if assembly.tokens.dropWhile (· == .documentEnd) = [.streamEnd] then
        some ⟨root, assembly.anchored⟩
      else none

def ofText? (text : List Char) : Option Document :=
  (tokens? text).bind ofTokens?

end Document

end Spellcraft.Yaml
