import FirewallRollout.Census
import FirewallRollout.Script
import FirewallRollout.Task.Record

/-!
# Requests and responses

What the interface is asked, and what it answers. An error leaves as an envelope with its code and
its message.
-/
namespace FirewallRollout.Api

structure Request where
  method : String
  /-- The path, and the query after a question mark; a scheme and a host may come before. -/
  target : String
  body : List UInt8 := []

/-- One page of a listing, as it was cut. -/
structure Page where
  tasks : List Task
  total : Nat
  limit : Nat
  offset : Nat

/-- What a response carries. -/
inductive Payload where
  | nothing
  | text (s : String)
  | health (activeTasks : Nat)
  | rules (rules : List Rule)
  | script (s : Script)
  | task (t : Task)
  | page (p : Page)
  | census (c : Census)
  | error (e : Error)

structure Response where
  status : Nat
  payload : Payload
  /-- Whether the body is held back, as for a request of the headers alone. -/
  headersOnly : Bool := false

namespace Payload

/-- The datum of a payload that is written as JSON, with a way to write moments. -/
def datumWith? (moment : Int64 → Datum) : Payload → Option Datum
  | health n => some (.record [("status", .text "ok"), ("activeTasks", .ofNat n)])
  | rules l => some (.list (l.map Rule.toDatum))
  | task t => some (t.toDatumWith moment)
  | page p => some (.record
      [("tasks", .list (p.tasks.map (·.toDatumWith moment))), ("total", .ofNat p.total),
       ("limit", .ofNat p.limit), ("offset", .ofNat p.offset)])
  | census c => some c.toDatum
  | error e => some (.record [("error", .record
      [("code", .text e.code), ("message", .text e.message)])])
  | nothing | text _ | script _ => none

/-- The text of a payload that is not written as JSON. -/
def plainText : Payload → String
  | text s => s
  | script s => s.text
  | _ => ""

/-- The content type. -/
def contentType? : Payload → Option String
  | nothing => none
  | text _ | script _ => some "text/plain; charset=utf-8"
  | _ => some "application/json"

/-- The fingerprint that a script travels with. -/
def fingerprint? : Payload → Option String
  | script s => some s.fingerprint
  | _ => none

end Payload

namespace Response

def ofError (e : Error) : Response := { status := e.httpStatus, payload := .error e }

/-- A response with a status and a payload, or the response of an error. -/
def ofExcept (status : Nat) : Except Error Payload → Response
  | .ok payload => { status, payload }
  | .error e => ofError e

end Response
end FirewallRollout.Api
