import FirewallRollout.Datum.Layout
import FirewallRollout.Error
import FirewallRollout.Json.Reader
import FirewallRollout.Text.Blank
import FirewallRollout.Text.Decimal
import FirewallRollout.Text.Percent

/-!
# Queries and bodies

The parameters of requests. Of the keys that a query knows each may come once, others are passed
over; a blank name counts as none. An empty body asks for a rebuild that is not forced.
-/
namespace FirewallRollout.Api

abbrev Query := List (String × String)

namespace Query

/-- Why a query cannot be read. -/
def malformed : Error := .validation "query" "malformed query string"

/-- The pairs of a query; a known key that comes twice is refused. -/
def read (known : List String) (query : String) : Except Error Query :=
  let pairs := (Text.Percent.formPairs query).filter fun p => known.contains p.1
  if (pairs.map Prod.fst).Nodup then .ok pairs else .error malformed

/-- The trimmed value of a key, unless it is blank. -/
def name? (q : Query) (key : String) : Option String := Text.present (q.lookup key)

/-- A number under a key, if the key is there. -/
def number? (q : Query) (key : String) : Except Error (Option Nat) :=
  match q.lookup key with
  | none => .ok none
  | some s => (Text.unsigned64? s).elim (.error malformed) fun n => .ok (some n.toNat)

/-- Whether a key is there with the value `true`; the only other value is `false`. -/
def flag (q : Query) (key : String) : Except Error Bool :=
  match q.lookup key with
  | none | some "false" => .ok false
  | some "true" => .ok true
  | some _ => .error malformed

end Query

/-- The one field of a rebuild request. -/
def rebuildLayout : Layout := [{ name := "force", trailing := true }]

/-- Whether an octet is white space of ASCII; a vertical tab is not. -/
def isBlankOctet (b : UInt8) : Bool :=
  b == 0x20 || b == 0x09 || b == 0x0A || b == 0x0C || b == 0x0D

/-- Whether a body asks for a forced rebuild. -/
def forceOf (body : List UInt8) : Except Error Bool :=
  if body.all isBlankOctet then .ok false
  else
    let force := do
      let d ← Json.ofOctets? body
      let fields ← rebuildLayout.read? .refused d
      fields.defaulted "force" Datum.bool? false
    force.elim (.error (.validation "body" "invalid rebuild request")) .ok

end FirewallRollout.Api
