import FirewallRollout.Datum.Layout
import FirewallRollout.Error
import FirewallRollout.Text.AsciiCase
import FirewallRollout.Text.Blank

/-!
# Tasks

One rebuild of one server. A task is pending, then running, then ended with success or failure; it
may also fail before it runs. An ended task never changes, its progress only grows, and no counter
passes the number of its rules. Counters are 32-bit words and moments are seconds of the epoch.
-/
namespace FirewallRollout

inductive Status where
  | pending
  | running
  | success
  | failed
  deriving DecidableEq

namespace Status

def all : List Status := [pending, running, success, failed]

def name : Status → String
  | pending => "PENDING"
  | running => "RUNNING"
  | success => "SUCCESS"
  | failed => "FAILED"

def isTerminal : Status → Bool
  | success | failed => true
  | pending | running => false

/-- The status with exactly a name. -/
def ofName? (name : String) : Option Status := all.find? (·.name == name)

/-- The status that a text names, in any case and with blanks around. -/
def parse? (s : String) : Option Status := ofName? (Text.foldUpper (Text.trim s))

/-- A status by name, or the fault in the field `status`. -/
def parse (s : String) : Except Error Status :=
  match parse? s with
  | some status => .ok status
  | none =>
    .error (.validation "status" s!"unknown task status '{Text.foldUpper (Text.trim s)}'")

/-- A status is its name, alone or as the key of a record of one null. -/
def ofDatum? : Datum → Option Status
  | .text name => ofName? name
  | .record [(name, .null)] => ofName? name
  | _ => none

end Status

structure Task where
  id : String
  server : String
  status : Status
  total : UInt32
  processed : UInt32
  failed : UInt32
  force : Bool
  errorMessage : Option String
  startedAt : Int64
  completedAt : Option Int64
  deriving DecidableEq

namespace Task

/-- A task that nobody has started. -/
def create (id server : String) (total : UInt32) (force : Bool) (now : Int64) : Task :=
  { id, server, status := .pending, total, processed := 0, failed := 0, force,
    errorMessage := none, startedAt := now, completedAt := none }

def isTerminal (t : Task) : Bool := t.status.isTerminal

/-- Why an operation on a task is refused. -/
inductive Refusal where
  /-- Only a pending task starts. -/
  | notPending (id : String) (status : Status)
  /-- An ended task stays as it is. -/
  | ended (verb id : String) (status : Status)
  deriving DecidableEq

def Refusal.error : Refusal → Error
  | notPending id status =>
    .invalidOperation s!"cannot start task {id}: status is {status.name}"
  | ended verb id status => .invalidOperation s!"cannot {verb} task {id}: already {status.name}"

/-- The message of a task that a caller cancelled. -/
def cancelledMessage : String := "cancelled by user"

/-! An operation works on a task in place: it gives its answer and the task that it leaves, also when
it is refused. -/

def start (t : Task) : Except Refusal Unit × Task :=
  if t.status = .pending then (.ok (), { t with status := .running })
  else (.error (.notPending t.id t.status), t)

/-- Whether a report moves the progress: late and stale reports do not. -/
def advances (t : Task) (n : UInt32) : Bool :=
  !t.isTerminal && decide (t.processed < min n t.total)

/-- The task after a report of progress. -/
def progress (t : Task) (n : UInt32) : Task :=
  if t.advances n then { t with processed := min n t.total } else t

/-- Go on with a task that has not ended. -/
def unlessEnded (t : Task) (verb : String) (work : Task → Except Refusal Unit × Task) :
    Except Refusal Unit × Task :=
  if t.isTerminal then (.error (.ended verb t.id t.status), t) else work t

def succeed (t : Task) (now : Int64) : Except Refusal Unit × Task :=
  t.unlessEnded "complete" fun t =>
    (.ok (), { t with status := .success, processed := t.total, failed := 0, errorMessage := none,
                      completedAt := some now })

/-- The task ended with failure; no more rules fail than there are. -/
def endFailed (t : Task) (failed : UInt32) (message : String) (now : Int64) : Task :=
  { t with status := .failed, failed := min failed t.total, errorMessage := some message,
           completedAt := some now }

/-- A command failed: at least one rule did. -/
def fail (t : Task) (failed : UInt32) (message : String) (now : Int64) :
    Except Refusal Unit × Task :=
  t.unlessEnded "fail" fun t => (.ok (), t.endFailed (max failed 1) message now)

/-- The task ended from outside, with every rule that was not applied counted as failed. -/
def abandon (t : Task) (message : String) (now : Int64) : Task :=
  t.endFailed (t.total - t.processed) message now

def abort (t : Task) (message : String) (now : Int64) : Except Refusal Unit × Task :=
  t.unlessEnded "abort" fun t => (.ok (), t.abandon message now)

def cancel (t : Task) (now : Int64) : Except Refusal Unit × Task :=
  t.unlessEnded "cancel" (·.abort cancelledMessage now)

/-- An operation on a task. -/
inductive Step where
  | start
  | progress (n : UInt32)
  | succeed (now : Int64)
  | fail (failed : UInt32) (message : String) (now : Int64)
  | abort (message : String) (now : Int64)
  | cancel (now : Int64)

/-- What a step answers: a report of progress tells whether it counted. -/
abbrev Reply := Option Bool

/-- An operation that has nothing to reply. -/
def silent (done : Except Refusal Unit × Task) : Except Refusal Reply × Task :=
  (done.1.map fun () => none, done.2)

/-- The step's reply, and the task that it leaves. -/
def step (t : Task) : Step → Except Refusal Reply × Task
  | .start => silent t.start
  | .progress n => (.ok (some (t.advances n)), t.progress n)
  | .succeed now => silent (t.succeed now)
  | .fail failed message now => silent (t.fail failed message now)
  | .abort message now => silent (t.abort message now)
  | .cancel now => silent (t.cancel now)

/-- Several steps in order, stopped by the first that is refused. Those before it are not taken
back. -/
def steps (t : Task) : List Step → Except Refusal (List Reply) × Task
  | [] => (.ok [], t)
  | s :: rest =>
    match t.step s with
    | (.error refusal, t) => (.error refusal, t)
    | (.ok reply, t) =>
      let (replies, t) := t.steps rest
      (replies.map (reply :: ·), t)

/-- What was done to a task, with a refusal as the error that is reported. -/
def reported {α : Type} (done : Except Refusal α × Task) : Except Error α × Task :=
  (done.1.mapError Refusal.error, done.2)

end Task
end FirewallRollout
