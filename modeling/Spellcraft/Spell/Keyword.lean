import Spellcraft.Text.Line

set_option autoImplicit false

namespace Spellcraft

inductive Keyword where
  | kernelSpace
  | rootEntropy
  | voidManifest
  | quantumSuperposition
  | paradoxEngine
deriving Repr, DecidableEq

namespace Keyword

def table : List Keyword :=
  [kernelSpace, rootEntropy, voidManifest, quantumSuperposition, paradoxEngine]

def name : Keyword → String
  | kernelSpace => "kernel.space"
  | rootEntropy => "root.entropy"
  | voidManifest => "void.manifest"
  | quantumSuperposition => "quantum.superposition"
  | paradoxEngine => "paradox.engine"

def ofName? (text : String) : Option Keyword :=
  table.find? (·.name == text)

def label : Keyword → String
  | kernelSpace => "KernelSpace"
  | rootEntropy => "RootEntropy"
  | voidManifest => "VoidManifest"
  | quantumSuperposition => "QuantumSuperposition"
  | paradoxEngine => "ParadoxEngine"

-- The keywords are ASCII, and the Kelvin sign is the only other character whose lower-case form is
-- an ASCII letter alone. The dotted capital I becomes an i and a combining dot, and in no keyword
-- can that dot follow an i.
def lower (c : Char) : Char :=
  if c = '\u212A' then 'k' else c.toLower

def inText (text : List Char) : List Keyword :=
  let lowered := text.map lower
  table.filter fun keyword => Text.occurs keyword.name.toList lowered

def chosen? (carried : List Keyword) : Option Keyword :=
  table.find? (carried.contains ·)

end Keyword

end Spellcraft
