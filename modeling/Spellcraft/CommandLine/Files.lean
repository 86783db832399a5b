set_option autoImplicit false

namespace Spellcraft.CommandLine

def pathParts (path : String) : List String :=
  let names := ((path.toList.splitOn '/').map String.ofList).filter fun name =>
    name != "" && name != "."
  if path.toList.head? = some '/' then "/" :: names else names

-- The root is around itself.
def outer (place : List String) : List String :=
  if place = ["/"] then place
  else if place.all (· == "..") then ".." :: place
  else place.dropLast

def inner (place : List String) (name : String) : List String :=
  if name = "/" then ["/"]
  else if name = "" ∨ name = "." then place
  else if name = ".." then outer place
  else place ++ [name]

def nameLimit : Nat := 255

structure Files where
  entries : List (List String × ByteArray)
  directories : List (List String)

namespace Files

def empty : Files :=
  ⟨[], []⟩

-- The directory of a run, the root and what is around them are always there.
def isDirectory (files : Files) (place : List String) : Bool :=
  place.all (· == "..") || place == ["/"] || files.directories.contains place

def isTaken (files : Files) (place : List String) : Bool :=
  files.isDirectory place || (files.entries.lookup place).isSome

def step (files : Files) (place : List String) (name : String) : Option (List String) :=
  if files.isDirectory place && name.utf8ByteSize ≤ nameLimit then some (inner place name)
  else none

/-- Where a path leads, if there is a way. A path that ends in a slash leads into a directory. -/
def place? (files : Files) (path : String) : Option (List String) :=
  match (path.toList.splitOn '/').map String.ofList with
  | [] | [""] => none
  | "" :: names => names.foldlM files.step ["/"]
  | names => names.foldlM files.step []

def read? (files : Files) (path : String) : Option ByteArray :=
  (files.place? path).bind (files.entries.lookup ·)

def readText? (files : Files) (path : String) : Option String :=
  (files.read? path).bind String.fromUTF8?

def has (files : Files) (path : String) : Bool :=
  (files.place? path).any files.isTaken

-- A file in the way stops it; what was made before it stays.
def makeDirectories (files : Files) (place : List String) : List String → Files × Bool
  | [] => (files, true)
  | name :: names =>
    match files.step place name with
    | none => (files, false)
    | some next =>
      if files.isDirectory next then files.makeDirectories next names
      else if files.isTaken next then (files, false)
      else
        let made := { files with directories := next :: files.directories }
        made.makeDirectories next names

def addDirectory (files : Files) (path : String) : Files :=
  (files.makeDirectories [] (pathParts path)).1

def put? (files : Files) (path : String) (contents : ByteArray) : Option Files :=
  match files.place? path with
  | none => none
  | some place =>
    if files.isDirectory place then none
    else
      some { files with
        entries := (place, contents) :: files.entries.filter fun entry => entry.1 != place }

/-- Writes a file, and tells whether that was possible. Directories on the way are made, and stay
even if the file could not be written. -/
def write (files : Files) (path : String) (contents : ByteArray) : Files × Bool :=
  match files.makeDirectories [] (pathParts path).dropLast with
  | (made, false) => (made, false)
  | (made, true) =>
    match made.put? path contents with
    | some written => (written, true)
    | none => (made, false)

end Files

end Spellcraft.CommandLine
