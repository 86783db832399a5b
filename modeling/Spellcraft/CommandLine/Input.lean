set_option autoImplicit false

namespace Spellcraft.CommandLine

/-- What is read of the input, up to its end or up to where reading fails. -/
structure Input where
  bytes : ByteArray
  failure : Option String

namespace Input

def empty : Input :=
  ⟨.empty, none⟩

def ofString (text : String) : Input :=
  ⟨text.toUTF8, none⟩

instance : Coe String Input :=
  ⟨ofString⟩

def decode (bytes : ByteArray) : Except String String :=
  match String.fromUTF8? bytes with
  | some text => .ok text
  | none => .error "stream did not contain valid UTF-8"

def text (input : Input) : Except String String :=
  match input.failure with
  | some message => .error message
  | none => decode input.bytes

def wholeLines : List UInt8 → List (List UInt8)
  | [] => []
  | byte :: rest =>
    if byte = 10 then [byte] :: wholeLines rest
    else
      match wholeLines rest with
      | [] => [[byte]]
      | line :: others => (byte :: line) :: others

-- A line that reading fails in is no line.
def lines (input : Input) : List (Except String String) :=
  let whole := wholeLines input.bytes.toList
  let read (line : List UInt8) := decode ⟨line.toArray⟩
  match input.failure with
  | some message => (whole.filter fun line => line.getLast? = some 10).map read ++ [.error message]
  | none => whole.map read

end Input

end Spellcraft.CommandLine
