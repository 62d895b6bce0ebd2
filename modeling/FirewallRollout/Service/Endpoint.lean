import FirewallRollout.Text.AsciiCase
import FirewallRollout.Text.Decimal

/-!
# Endpoints

Whether the service can listen on an address of the form `host:port`. A host is an internet
address of version 4, in one of its written forms; one of version 6 that is this machine's own; or
the name of this machine. The port is a 16-bit number, of which zero asks for any free one.
-/
namespace FirewallRollout.Service.Endpoint

/-- A part of an address: a number that is hexadecimal after `0x` and octal after `0`. -/
def part? (s : String) : Option Nat :=
  match s.toList with
  | '0' :: x :: rest =>
    if x == 'x' || x == 'X' then Text.inRadix? 16 rest else Text.inRadix? 8 (x :: rest)
  | digits => Text.inRadix? 10 digits

/-- The address of one to four parts, most significant first. The last part fills what the others,
of eight bits each, leave of the 32 bits. -/
def ofParts? : List Nat → Nat → Option Nat
  | [], _ => none
  | [last], bits => if last < 2 ^ bits then some last else none
  | part :: rest, bits =>
    if part < 256 ∧ 8 < bits then (ofParts? rest (bits - 8)).map fun n => part * 2 ^ (bits - 8) + n
    else none

/-- The address of version 4 that a host is written as. -/
def version4? (host : String) : Option Nat :=
  ((host.splitOn ".").mapM part?).bind fun parts => ofParts? parts 32

/-- A byte in decimal without leading zeros. -/
def byte? (s : String) : Option Nat :=
  match s.toList with
  | '0' :: _ :: _ => none
  | digits => (Text.inRadix? 10 digits).filter (· < 256)

/-- One group of 16 bits, or the two groups of an address of version 4 in dotted form. -/
def groups? (s : String) : Option (List Nat) :=
  match (s.splitOn ".").mapM byte? with
  | some [a, b, c, d] => some [a * 256 + b, c * 256 + d]
  | _ => if s.length ≤ 4 then (Text.inRadix? 16 s.toList).map fun n => [n] else none

/-- The groups between colons. The dotted form comes last. -/
def allGroups? : List String → Option (List Nat)
  | [] => some []
  | [last] => groups? last
  | s :: rest =>
    ((groups? s).filter (·.length == 1)).bind fun first => (allGroups? rest).map (first ++ ·)

/-- The groups of one half of an address; an empty half has none. -/
def half? (s : String) : Option (List Nat) := if s = "" then some [] else allGroups? (s.splitOn ":")

/-- The eight groups of the address of version 6 that a host is written as. Two colons together, once
at most, stand for the zeros that are missing. -/
def version6? (host : String) : Option (List Nat) :=
  match host.splitOn "::" with
  | [whole] => (allGroups? (whole.splitOn ":")).filter (·.length == 8)
  | [front, back] => do
    let front ← (half? front).filter fun _ => !front.toList.contains '.'
    let back ← half? back
    if front.length + back.length < 8 then
      some (front ++ List.replicate (8 - front.length - back.length) 0 ++ back)
    else none
  | _ => none

/-- Whether an address of version 6 is this machine: any address of it, its own one, or an address of
version 4 in the form of version 6. -/
def isLocal6 (groups : List Nat) : Bool :=
  match groups with
  | [0, 0, 0, 0, 0, 0, 0, last] => decide (last ≤ 1)
  | [0, 0, 0, 0, 0, 0xFFFF, _, _] => true
  | _ => false

/-- Whether the service can listen on a host. -/
def isLocal (host : String) : Bool :=
  Text.foldLower host == "localhost" || (version4? host).isSome || (version6? host).any isLocal6

/-- A host and a port, parted by the last colon. -/
def split? (listen : String) : Option (String × String) :=
  let back := listen.toList.reverse
  match back.dropWhile (· != ':') with
  | [] => none
  | _ :: host => some (.ofList host.reverse, .ofList (back.takeWhile (· != ':')).reverse)

/-- The address within brackets. -/
def bracketed? (host : String) : Option String :=
  match host.toList, host.toList.getLast? with
  | '[' :: rest, some ']' => some (.ofList rest.dropLast)
  | _, _ => none

/-- Whether the service can listen. In front of the port a plus sign may stand, but not after
brackets. -/
def canListen (listen : String) : Bool :=
  match split? listen with
  | none => false
  | some (host, port) =>
    (Text.unsigned64? port).any (·.toNat < 65536) &&
      match bracketed? host with
      | some address => (version6? address).any isLocal6 && (Text.decimal? port.toList).isSome
      | none => isLocal host

end FirewallRollout.Service.Endpoint
