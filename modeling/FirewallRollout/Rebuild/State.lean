import FirewallRollout.Assoc
import FirewallRollout.Census
import FirewallRollout.Executor.Program
import FirewallRollout.Inventory
import FirewallRollout.Rebuild.Settings
import FirewallRollout.Registry
import FirewallRollout.Script

/-!
# The state of the orchestrator

What the orchestrator knows between two steps: the inventory, the registry, which task holds each
server's slot, what was last applied to each server, and the workers in flight. A worker is there
from the trigger of its task until it lets go of everything; its cancellation token is part of it.
Time is the virtual clock in milliseconds.
-/
namespace FirewallRollout.Rebuild
open Executor (Failure Plan Result)

/-- How a worker's wait on its executor ended. -/
inductive Outcome where
  | applied
  | failed (f : Failure)
  | timedOut
  /-- Cancelled by a caller or by a shutdown. -/
  | interrupted
  deriving DecidableEq

/-- Where a worker stands. -/
inductive Phase where
  | queued
  /-- Waiting for the executor, until the budget is used up. -/
  | executing (deadline : Nat)
  /-- The outcome is known; the executor gets some more time to stop. -/
  | winding (outcome : Outcome) (limit : Nat)
  | settling (outcome : Outcome)
  | releasing
  deriving DecidableEq

structure Worker where
  /-- The task as it was registered. -/
  task : Task
  script : Script
  /-- Whether these commands were already in force when the task was triggered. -/
  unchanged : Bool
  cancelled : Bool := false
  phase : Phase := .queued
  deriving DecidableEq

/-- A call of the executor, and its result once it has returned. -/
structure Call where
  plan : Plan
  result : Option Result := none

structure State where
  settings : Settings := {}
  inventory : Inventory := {}
  registry : Registry := {}
  /-- The task that holds a server's slot. -/
  leases : List (String × String) := []
  /-- The fingerprint of the commands last applied to a server. -/
  fingerprints : List (String × String) := []
  workers : List Worker := []
  /-- The calls in the order in which they began. -/
  calls : List Call := []
  shuttingDown : Bool := false
  clock : Nat := 0

/-- The message of a task that a shutdown ended. -/
def shutdownMessage : String := "rebuild aborted: service shutting down"

/-- The message of a task that ran past a budget in seconds. -/
def timeoutMessage (budget : Nat) : String := (Error.timeout s!"rebuild timed out after {budget}s").message

namespace Worker

/-- The plan of the worker's call. -/
def plan (w : Worker) : Plan :=
  { task := w.task.id, server := w.script.server, preamble := Script.flushes,
    commands := w.script.commands }

end Worker

namespace State

def worker? (s : State) (id : String) : Option Worker := s.workers.find? (·.task.id == id)

/-- The tokens of the workers in flight, by task. -/
def tokens (s : State) : List (String × Bool) := s.workers.map fun w => (w.task.id, w.cancelled)

/-- Whether a task has ended; a task that is not known counts as ended. -/
def hasEnded (s : State) (id : String) : Bool :=
  match s.registry.find? id with
  | some e => e.task.isTerminal
  | none => true

/-- The state with the worker of a task changed. -/
def withWorker (s : State) (id : String) (change : Worker → Worker) : State :=
  { s with workers := s.workers.map fun w => if w.task.id == id then change w else w }

def setPhase (s : State) (id : String) (phase : Phase) : State :=
  s.withWorker id fun w => { w with phase }

/-- Change a task if the registry takes the change. -/
def withTask? (s : State) (id : String) (change : Task → Except Task.Refusal Unit × Task) :
    Option State :=
  match s.registry.update id fun t => Task.reported (change t) with
  | (.ok (), registry) => some { s with registry }
  | (.error _, _) => none

/-- The rules of a server in script order. -/
def rulesFor (s : State) (server : String) : Except Error (List Rule) := s.inventory.rulesFor server

/-- The script of a server's rules as they are now. -/
def scriptFor (s : State) (server : String) (onlyEnabled : Bool) (format : Script.Format) :
    Except Error Script := do
  let rules ← s.rulesFor server
  match Script.assemble server rules onlyEnabled format with
  | .ok script => .ok script
  | .error fault => .error fault.error

/-- The census of one server, which has to be known, or of all. -/
def census (s : State) (server : Option String) : Except Error Census :=
  match server with
  | some server =>
    if s.inventory.contains server then .ok (.ofRules s.inventory.allRules (some server))
    else .error (.notFound .server server)
  | none => .ok (.ofRules s.inventory.allRules none)

end State
end FirewallRollout.Rebuild
