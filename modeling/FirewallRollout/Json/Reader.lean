import FirewallRollout.Datum.Basic
import FirewallRollout.Json.Token

/-!
# Reading JSON

Tokens become one datum on a stack of the containers that are still open. A record with a key that
is no text is unreadable as a whole.
-/
namespace FirewallRollout.Json

/-- A container still open, with its finished contents newest first. -/
inductive Frame where
  | items (done : List Datum)
  | entries (done : List (Option String × Datum))
  | entry (done : List (Option String × Datum)) (key : Option String)

/-- What may come next. -/
inductive Awaiting where
  | value
  | firstItem
  | firstKey
  | key
  | colon
  | next
  deriving DecidableEq

/-- A reading of tokens: the open containers, innermost first, and the whole value once it is there. -/
structure Reading where
  frames : List Frame
  awaiting : Awaiting
  whole : Option Datum := none

/-- The datum of a closed record. -/
def recordOf (done : List (Option String × Datum)) : Datum :=
  match done.reverse.mapM fun entry => entry.1.map fun key => (key, entry.2) with
  | some entries => .record entries
  | none => .unreadable

namespace Reading

def start : Reading := { frames := [], awaiting := .value }

/-- A complete value put where it belongs. -/
def put (r : Reading) (d : Datum) : Option Reading :=
  match r.frames with
  | [] => some { frames := [], awaiting := .next, whole := some d }
  | .items done :: frames => some { r with frames := .items (d :: done) :: frames, awaiting := .next }
  | .entry done key :: frames =>
    some { r with frames := .entries ((key, d) :: done) :: frames, awaiting := .next }
  | .entries _ :: _ => none

/-- The innermost container closed. -/
def close (r : Reading) (token : Token) : Option Reading :=
  match r.frames, token with
  | .items done :: frames, .closeList => put { r with frames } (.list done.reverse)
  | .entries done :: frames, .closeRecord => put { r with frames } (recordOf done)
  | _, _ => none

/-- The first token of a value. -/
def value (r : Reading) : Token → Option Reading
  | .null => r.put .null
  | .bool b => r.put (.bool b)
  | .number n => r.put (n.elim .unreadable .integer)
  | .text s => r.put (s.elim .unreadable .text)
  | .openList => some { r with frames := .items [] :: r.frames, awaiting := .firstItem }
  | .openRecord => some { r with frames := .entries [] :: r.frames, awaiting := .firstKey }
  | _ => none

/-- The key of an entry. -/
def key (r : Reading) : Token → Option Reading
  | .text s =>
    match r.frames with
    | .entries done :: frames =>
      some { r with frames := .entry done s :: frames, awaiting := .colon }
    | _ => none
  | _ => none

/-- One token of a reading. -/
def step (r : Reading) (token : Token) : Option Reading :=
  match r.awaiting with
  | .value => r.value token
  | .firstItem => if token = .closeList then r.close token else r.value token
  | .firstKey => if token = .closeRecord then r.close token else r.key token
  | .key => r.key token
  | .colon => if token = .colon then some { r with awaiting := .value } else none
  | .next =>
    if token = .comma then
      match r.frames with
      | .items _ :: _ => some { r with awaiting := .value }
      | .entries _ :: _ => some { r with awaiting := .key }
      | _ => none
    else r.close token

end Reading

/-- The datum that a sequence of tokens denotes. -/
def ofTokens? (tokens : List Token) : Option Datum :=
  match tokens.foldlM Reading.step Reading.start with
  | some ⟨[], _, whole⟩ => whole
  | _ => none

/-- The datum that the octets of a document denote. -/
def ofOctets? (octets : List UInt8) : Option Datum := (tokens? octets).bind ofTokens?

/-- The datum that a document denotes. -/
def parse? (document : String) : Option Datum := ofOctets? (Text.Utf8.encode document)

end FirewallRollout.Json
