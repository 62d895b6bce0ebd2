import FirewallRollout.Rebuild.Event

/-!
# Interleavings

The registry, the fingerprints and the calls have no lock in common. A worker that starts its task or
ends it changes the task first; before it comes to the fingerprints or to its call, others may take
steps, and one of them may take the slot of its server over. Here such a worker is in the middle of
its step, with the parts that it has not done yet. A run of whole steps is an interleaving in which
nothing else comes between the parts of a step.

A trigger is one step here too. It looks at the fingerprint last, once its task is registered and has
the slot; until its worker is there, others can do no more to the task than cancel it. Rules that
change between its reading them and its task are those of an edit before the step, which another edit
takes back after it.
-/
namespace FirewallRollout.Rebuild

structure Interleaving where
  state : State
  /-- What the workers in the middle of a step have still to do, by task. -/
  rest : List (String × List Part) := []

/-- What may come next. -/
inductive Move where
  /-- A step; one that has several parts is only begun. -/
  | step (e : Event)
  /-- The worker of a task does the next part of its step. -/
  | proceed (id : String)
  /-- Time passes, whoever has something to do. -/
  | wait (ms : Nat)

/-- The task whose worker takes a step, alone or by its executor. -/
def Event.worker? : Event → Option String
  | .start id | .report id _ | .revoke id | .finish id _ | .expire id | .notice id | .abandon id
  | .settle id _ | .release id => some id
  | .trigger .. | .cancel .. | .shutDown | .edit _ | .pass _ => none

/-- The server of a part. -/
def Part.server : Part → String
  | .forget server | .remember server _ => server
  | .call plan => plan.server

namespace Interleaving

/-- What the worker of a task has still to do in its step. -/
def ahead (x : Interleaving) (id : String) : List Part := (x.rest.lookup id).getD []

/-- What is left to do when the worker of a task has some parts to do. -/
def leave (x : Interleaving) (id : String) (parts : List Part) : List (String × List Part) :=
  if parts.isEmpty then Assoc.erase x.rest id else Assoc.put x.rest id parts

/-- A step that is begun. -/
def begun (x : Interleaving) (id : String) (step : State × List Part) : Interleaving :=
  { state := step.1, rest := x.leave id step.2 }

/-- Whether a step may come next: a worker has to be through with one before it takes another. -/
def allows (x : Interleaving) (e : Event) : Bool := e.worker?.all fun id => (x.ahead id).isEmpty

def take (x : Interleaving) : Event → Interleaving
  | .start id => x.begun id (x.state.enter id)
  | .settle id now => x.begun id (x.state.conclude id now)
  | e => { x with state := x.state.step e }

def proceed (x : Interleaving) (id : String) : Interleaving :=
  match x.ahead id with
  | [] => x
  | part :: parts => { state := x.state.carryOut part, rest := x.leave id parts }

def wait (x : Interleaving) (ms : Nat) : Interleaving :=
  { x with state := { x.state with clock := x.state.clock + ms } }

def move (x : Interleaving) : Move → Interleaving
  | .step e => if x.allows e then x.take e else x
  | .proceed id => x.proceed id
  | .wait ms => x.wait ms

def run (x : Interleaving) (moves : List Move) : Interleaving := moves.foldl move x

end Interleaving

/-- The moves of a whole step. -/
def Event.moves (e : Event) : List Move :=
  match e with
  | .start id => [.step e, .proceed id, .proceed id]
  | .settle id _ => [.step e, .proceed id]
  | _ => [.step e]

end FirewallRollout.Rebuild
