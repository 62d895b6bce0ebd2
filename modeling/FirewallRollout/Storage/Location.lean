import FirewallRollout.Machine
import FirewallRollout.Storage.Database
import FirewallRollout.Text.Percent

/-!
# Locations of task databases

A location is a path, an address of the form `file:path?mode=rw`, or one of the two texts that stand
for a database without a file. The directories above a path are made before it is opened.
-/
namespace FirewallRollout.Storage

/-- Where a task database is kept. -/
inductive Location where
  /-- Nowhere but in the running service. -/
  | transient
  /-- In a file, which may have to be there already. -/
  | file (path : String) (existing : Bool)
  /-- A location that names nothing, or that could only be read. -/
  | unusable
  deriving DecidableEq

namespace Location

def ofPath (path : String) (existing : Bool) : Location :=
  if path = "" ∨ path = ":memory:" then .transient else .file path existing

/-- One part of an address; nothing after a null character counts. -/
def part (s : String) : String :=
  .ofList ((Text.Utf8.decodeLossy (Text.Percent.decodeOctets (Text.Utf8.encode s))).toList.takeWhile
    (· != '\x00'))

/-- The parameters of an address, in order. -/
def parameters (query : String) : List (String × String) :=
  (query.splitOn "&").map fun piece =>
    let cs := piece.toList
    (part (.ofList (cs.takeWhile (· != '='))), part (.ofList ((cs.dropWhile (· != '=')).drop 1)))

/-- The values that are known for some parameters; other parameters are passed over. -/
def knownValues : List (String × List String) :=
  [("mode", ["ro", "rw", "rwc", "memory"]), ("cache", ["shared", "private"]),
   ("vfs", ["unix", "unix-dotfile", "unix-excl", "unix-none"])]

/-- Whether a parameter has a value that is known. -/
def isKnown (parameter : String × String) : Bool :=
  ((knownValues.lookup parameter.1).all (·.contains parameter.2))

/-- The location of a path with parameters, of which the last mode counts. -/
def withParameters (path : String) (parameters : List (String × String)) : Location :=
  if !parameters.all isKnown then .unusable
  else
    match parameters.reverse.lookup "mode" with
    | some "ro" => .unusable
    | some "memory" => .transient
    | some "rw" => ofPath path true
    | _ => ofPath path false

/-- The location of an address after its scheme. A host, if one is given, is this machine. -/
def ofAddress (address : List Char) : Location :=
  let local? : Option (List Char) := match address with
    | '/' :: '/' :: rest =>
      let host := rest.takeWhile (· != '/')
      if host = [] ∨ host = "localhost".toList then some (rest.dropWhile (· != '/')) else none
    | rest => some rest
  match local?.map (·.takeWhile (· != '#')) with
  | none => .unusable
  | some cs =>
    withParameters (part (.ofList (cs.takeWhile (· != '?'))))
      (parameters (.ofList ((cs.dropWhile (· != '?')).drop 1)))

/-- The location that a text names. -/
def ofText (s : String) : Location :=
  match s.toList with
  | 'f' :: 'i' :: 'l' :: 'e' :: ':' :: address => ofAddress address
  | cs => if '\x00' ∈ cs then .unusable else ofPath s false

/-- The greatest number of octets of the full path of a database. -/
def pathLimit : Nat := 504

/-- What stands at a place for a database. A text of one octet passes for an empty file. -/
def fileAt (m : Machine) (place : Machine.Place) (existing : Bool) : File :=
  if pathLimit < (place.foldl (fun size name => size + name.utf8ByteSize + 1) 0) then .unreachable
  else
    match m.walk [] place with
    | .ok (_, .text contents) => if contents.utf8ByteSize ≤ 1 then .database {} else .foreign
    | .ok _ => .foreign
    | .error .missing =>
      if !existing && m.hasRoom place.dropLast then .database {} else .unreachable
    | .error _ => .unreachable

/-- What a text leads to as the location of a task database, once the directories above it are
made. -/
def resolve (m : Machine) (s : String) : File :=
  if '\x00' ∈ s.toList then .unreachable
  else
    match m.withDirectories (m.origin s) (Machine.namesAbove s), ofText s with
    | none, _ | _, .unusable => .unreachable
    | _, .transient => .database {}
    | some m, .file path existing =>
      fileAt m ((path.splitOn "/").foldl Machine.enter (m.origin path)) existing

end Location
end FirewallRollout.Storage
