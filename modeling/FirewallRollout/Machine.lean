/-!
# The machine around the service

What stands at the paths of a machine, as far as the service can tell. A path is walked name by name
from the root or from the working directory; a name of nothing or of one point stays, and a name of
two points goes back. A program is launched by its path, or by its name along the search path.
-/
namespace FirewallRollout

namespace Machine

/-- What stands at a path. -/
inductive Entry where
  | directory
  /-- A directory in which nothing new can be made. -/
  | sealedDirectory
  | text (contents : String)
  /-- A program that says nothing and ends with a code. -/
  | program (code : UInt8)
  /-- A device, which reads as an empty text. -/
  | device
  deriving DecidableEq

/-- A place by the names that lead to it from the root. -/
abbrev Place := List String

def Entry.isDirectory : Entry → Bool
  | directory | sealedDirectory => true
  | _ => false

end Machine

/-- The entries of a machine by their places. The root is a directory without an entry. -/
structure Machine where
  entries : List (Machine.Place × Machine.Entry) := []
  workingDirectory : Machine.Place := []
  searchPath : List Machine.Place := []

namespace Machine

/-- Why a path leads nowhere. -/
inductive PathFault where
  | missing
  | notDirectory
  | nameTooLong
  deriving DecidableEq

def entry? (m : Machine) (place : Place) : Option Entry :=
  if place = [] then some .directory else m.entries.lookup place

/-- The machine with one more entry. -/
def put (m : Machine) (place : Place) (entry : Entry) : Machine :=
  { m with entries := (place, entry) :: m.entries }

/-- The greatest number of octets of a name. -/
def nameLimit : Nat := 255

/-- The directory that a name leads to from another one, were it there. -/
def enter (place : Place) (name : String) : Place :=
  if name = "" ∨ name = "." then place
  else if name = ".." then place.dropLast
  else place ++ [name]

/-- The place that names lead to from a place, with what stands there. -/
def walk (m : Machine) : Place → List String → Except PathFault (Place × Entry)
  | place, [] =>
    match m.entry? place with
    | none => .error .missing
    | some entry => .ok (place, entry)
  | place, name :: rest =>
    match m.entry? place with
    | none => .error .missing
    | some entry =>
      if !entry.isDirectory then .error .notDirectory
      else if nameLimit < name.utf8ByteSize then .error .nameTooLong
      else m.walk (enter place name) rest

/-- Where the walk of a path begins. -/
def origin (m : Machine) (path : String) : Place :=
  if path.toList.head? = some '/' then [] else m.workingDirectory

/-- What a path leads to. The empty path leads nowhere, and no path holds a null character. -/
def find (m : Machine) (path : String) : Except PathFault (Place × Entry) :=
  if path = "" ∨ '\x00' ∈ path.toList then .error .missing
  else m.walk (m.origin path) (path.splitOn "/")

/-- What is found when a path is read as a text. -/
inductive Reading where
  | missing
  | unreadable
  | text (contents : String)
  deriving DecidableEq

def read (m : Machine) (path : String) : Reading :=
  match m.find path with
  | .error _ => .missing
  | .ok (_, .text contents) => .text contents
  | .ok (_, .device) => .text ""
  | .ok _ => .unreadable

/-- Whether something new can be made in a place. -/
def hasRoom (m : Machine) (place : Place) : Bool := m.entry? place = some .directory

/-- The machine with the directories on the way along some names made as needed; absent when
something else stands in the way, or one cannot be made. -/
def withDirectories (m : Machine) : Place → List String → Option Machine
  | _, [] => some m
  | place, name :: rest =>
    let next := enter place name
    if nameLimit < name.utf8ByteSize then none
    else
      match m.entry? next with
      | none =>
        if m.hasRoom place then (m.put next .directory).withDirectories next rest else none
      | some entry => if entry.isDirectory then m.withDirectories next rest else none

/-- The names of a path up to its last one; points and slashes after it do not count. -/
def namesAbove (path : String) : List String :=
  ((path.splitOn "/").reverse.dropWhile fun name => name == "" || name == ".").tail.reverse

/-- Why a program is not launched. -/
inductive LaunchFault where
  | nullCharacter
  | notFound
  | notPermitted
  | notDirectory
  | nameTooLong
  deriving DecidableEq

def LaunchFault.message : LaunchFault → String
  | nullCharacter => "nul byte found in provided data"
  | notFound => "No such file or directory (os error 2)"
  | notPermitted => "Permission denied (os error 13)"
  | notDirectory => "Not a directory (os error 20)"
  | nameTooLong => "File name too long (os error 36)"

def PathFault.launchFault : PathFault → LaunchFault
  | missing => .notFound
  | notDirectory => .notDirectory
  | nameTooLong => .nameTooLong

/-- The code that the program at the end of a walk ends with. -/
def launched (found : Except PathFault (Place × Entry)) : Except LaunchFault UInt8 :=
  match found with
  | .error fault => .error fault.launchFault
  | .ok (_, .program code) => .ok code
  | .ok _ => .error .notPermitted

/-- The first launch along the search path that succeeds. An entry that is no program is only
reported when no program is found after it. -/
def firstLaunched : List (Except LaunchFault UInt8) → Except LaunchFault UInt8
  | [] => .error .notFound
  | .ok code :: _ => .ok code
  | .error fault :: rest =>
    match firstLaunched rest with
    | .ok code => .ok code
    | .error later => .error (if fault = .notPermitted then fault else later)

/-- Launch a program by a path with a slash in it, or by its name. -/
def launch (m : Machine) (binary : String) : Except LaunchFault UInt8 :=
  if '\x00' ∈ binary.toList then .error .nullCharacter
  else if '/' ∈ binary.toList then launched (m.find binary)
  else if binary = "" then .error .notFound
  else if nameLimit < binary.utf8ByteSize then .error .nameTooLong
  else firstLaunched (m.searchPath.map fun place => launched (m.walk place [binary]))

end Machine
end FirewallRollout
