import FirewallRollout.Rebuild.Request

/-!
# Steps of the orchestrator

The steps of which every run is made, in any order, each taken as a whole. A step that does not apply
where it is taken changes nothing. The executor takes part through its reports and its result; the
clock moves only when no worker has anything to do at once, and never past a deadline.

A worker that starts its task or ends it changes the task first and other tables afterwards. The parts
of these two steps are given by themselves, so that they can also be taken apart.
-/
namespace FirewallRollout.Rebuild

inductive Event where
  | trigger (server : String) (force : Bool) (id : String) (now : Int64)
  | cancel (id : String) (now : Int64)
  | shutDown
  /-- The rules change. -/
  | edit (inventory : Inventory)
  /-- A worker starts its task, and begins a call unless there is nothing to apply. -/
  | start (id : String)
  /-- The executor reports progress. -/
  | report (id : String) (n : UInt32)
  /-- The executor cancels the token it was given. -/
  | revoke (id : String)
  /-- The executor returns. -/
  | finish (id : String) (result : Executor.Result)
  /-- The budget is used up. -/
  | expire (id : String)
  /-- The worker notices that its token is cancelled. -/
  | notice (id : String)
  /-- The worker stops waiting for an executor that was cancelled. -/
  | abandon (id : String)
  | settle (id : String) (now : Int64)
  | release (id : String)
  | pass (ms : Nat)

/-- What a worker has to do in a step after it has changed its task. -/
inductive Part where
  /-- Forget what was applied to a server. -/
  | forget (server : String)
  /-- Begin a call. -/
  | call (plan : Executor.Plan)
  /-- Remember what was applied to a server. -/
  | remember (server fingerprint : String)
  deriving DecidableEq

namespace Worker

/-- When the worker has to act at the latest, if it waits for the executor. -/
def deadline? (w : Worker) : Option Nat :=
  match w.phase with
  | .executing deadline => some deadline
  | .winding _ limit => some limit
  | _ => none

/-- Whether the worker acts without waiting. -/
def isUrgent (w : Worker) : Bool :=
  match w.phase with
  | .executing _ => w.cancelled
  | .winding .. => false
  | _ => true

end Worker

namespace State

/-- The worker of a task, if it is in a phase. -/
def workerIn? (s : State) (id : String) (inPhase : Phase → Bool) : Option Worker :=
  (s.worker? id).filter fun w => inPhase w.phase

/-- The time that a task of some rules may take, in milliseconds. -/
def budgetMs (s : State) (t : Task) : Nat := 1000 * s.settings.budget t.total

/-- Do one part of a step. -/
def carryOut (s : State) : Part → State
  | .forget server => { s with fingerprints := Assoc.erase s.fingerprints server }
  | .call plan => { s with calls := s.calls ++ [Call.mk plan none] }
  | .remember server fingerprint =>
    { s with fingerprints := Assoc.put s.fingerprints server fingerprint }

/-- The state once all that is left of a step has been done. -/
def complete (step : State × List Part) : State := step.2.foldl carryOut step.1

/-- Start a task, and tell what its worker then has to do to be in the phase it comes to. -/
def enter (s : State) (id : String) : State × List Part :=
  match s.workerIn? id (· == .queued) with
  | none => (s, [])
  | some w =>
    match s.withTask? id Task.start with
    | none => (s.setPhase id .releasing, [])
    | some s =>
      if w.unchanged then (s.setPhase id (.settling .applied), [])
      else (s.setPhase id (.executing (s.clock + s.budgetMs w.task)),
        [.forget w.task.server, .call w.plan])

def start (s : State) (id : String) : State := complete (s.enter id)

/-- A start as one change of the state. -/
theorem start_eq (s : State) (id : String) : s.start id =
    match s.workerIn? id (· == .queued) with
    | none => s
    | some w =>
      match s.withTask? id Task.start with
      | none => s.setPhase id .releasing
      | some s =>
        if w.unchanged then s.setPhase id (.settling .applied)
        else setPhase { s with
            fingerprints := Assoc.erase s.fingerprints w.task.server
            calls := s.calls ++ [Call.mk w.plan none] }
          id (.executing (s.clock + s.budgetMs w.task)) := by
  unfold start enter
  split
  · rfl
  split
  · rfl
  split <;> rfl

/-- Whether the worker of a task is in a call. -/
def isCalling (p : Phase) : Bool :=
  match p with
  | .executing _ | .winding .. => true
  | _ => false

def report (s : State) (id : String) (n : UInt32) : State :=
  match s.workerIn? id isCalling with
  | none => s
  | some _ => (s.withTask? id fun t => (.ok (), t.progress n)).getD s

def revoke (s : State) (id : String) : State :=
  match s.workerIn? id isCalling with
  | none => s
  | some _ => s.withWorker id fun w => { w with cancelled := true }

/-- The calls with the result of a task's call. -/
def withResult (s : State) (id : String) (result : Executor.Result) : State :=
  { s with calls := s.calls.map fun c =>
      if c.plan.task == id then { c with result := some result } else c }

/-- What the result of an executor means for its worker. -/
def outcomeOf (w : Worker) (result : Executor.Result) : Outcome :=
  match result with
  | .ok () => .applied
  | .error f => if w.cancelled then .interrupted else .failed f

def finish (s : State) (id : String) (result : Executor.Result) : State :=
  match s.worker? id with
  | none => s
  | some w =>
    match w.phase with
    | .executing _ => (s.withResult id result).setPhase id (.settling (outcomeOf w result))
    | .winding outcome _ => (s.withResult id result).setPhase id (.settling outcome)
    | _ => s

/-- Why a worker stops waiting: someone else ended its task, or its time is up. -/
def stopOutcome (s : State) (id : String) : Outcome :=
  if s.shuttingDown || s.hasEnded id then .interrupted else .timedOut

/-- Cancel the call of a worker, and give the executor some time to stop. -/
def wind (s : State) (id : String) : State :=
  let phase := Phase.winding (s.stopOutcome id) (s.clock + 1000 * s.settings.cancelGrace.toNat)
  s.withWorker id fun w => { w with cancelled := true, phase }

def expire (s : State) (id : String) : State :=
  match s.worker? id with
  | some { phase := .executing deadline, .. } => if deadline ≤ s.clock then s.wind id else s
  | _ => s

def notice (s : State) (id : String) : State :=
  match s.worker? id with
  | some { phase := .executing _, cancelled := true, .. } => s.wind id
  | _ => s

def abandon (s : State) (id : String) : State :=
  match s.worker? id with
  | some { phase := .winding outcome limit, .. } =>
    if limit ≤ s.clock then s.setPhase id (.settling outcome) else s
  | _ => s

/-- The task after the outcome of its worker, if it has not ended. -/
def settleTask (s : State) (t : Task) (outcome : Outcome) (now : Int64) :
    Except Task.Refusal Unit × Task :=
  match outcome with
  | .applied => t.succeed now
  | .failed f =>
    (t.progress f.processed).fail f.failed (Error.execution f.message).message now
  | .timedOut => t.abort (timeoutMessage (s.settings.budget t.total)) now
  | .interrupted => t.abort (if s.shuttingDown then shutdownMessage else Task.cancelledMessage) now

/-- Record an outcome, and tell what its worker then has to do; a task that has ended takes none. -/
def conclude (s : State) (id : String) (now : Int64) : State × List Part :=
  match s.worker? id with
  | some { phase := .settling outcome, task, script, .. } =>
    match s.withTask? id fun t => s.settleTask t outcome now with
    | none => (s.setPhase id .releasing, [])
    | some s => (s.setPhase id .releasing,
        if outcome = .applied then [.remember task.server script.fingerprint] else [])
  | _ => (s, [])

def settle (s : State) (id : String) (now : Int64) : State := complete (s.conclude id now)

/-- The end of a task as one change of the state. -/
theorem settle_eq (s : State) (id : String) (now : Int64) : s.settle id now =
    match s.worker? id with
    | some { phase := .settling outcome, task, script, .. } =>
      match s.withTask? id fun t => s.settleTask t outcome now with
      | none => s.setPhase id .releasing
      | some s =>
        let fingerprints := if outcome = .applied
          then Assoc.put s.fingerprints task.server script.fingerprint else s.fingerprints
        setPhase { s with fingerprints } id .releasing
    | _ => s := by
  unfold settle conclude
  split
  · split
    · rfl
    · split <;> rfl
  · rfl

/-- Let go of the token, and of the slot if the task still holds it. -/
def release (s : State) (id : String) : State :=
  match s.workerIn? id (· == .releasing) with
  | none => s
  | some w =>
    { s with
      workers := s.workers.filter (·.task.id != id)
      leases := if s.leases.lookup w.task.server == some id
        then Assoc.erase s.leases w.task.server else s.leases }

/-- Whether the clock may move on by some time. -/
def mayPass (s : State) (ms : Nat) : Bool :=
  s.workers.all fun w => !w.isUrgent && w.deadline?.all (s.clock + ms ≤ ·)

def pass (s : State) (ms : Nat) : State :=
  if s.mayPass ms then { s with clock := s.clock + ms } else s

/-- One step. -/
def step (s : State) : Event → State
  | .trigger server force id now => (s.trigger server force id now).2
  | .cancel id now => (s.cancel id now).2
  | .shutDown => s.shutDown
  | .edit inventory => { s with inventory }
  | .start id => s.start id
  | .report id n => s.report id n
  | .revoke id => s.revoke id
  | .finish id result => s.finish id result
  | .expire id => s.expire id
  | .notice id => s.notice id
  | .abandon id => s.abandon id
  | .settle id now => s.settle id now
  | .release id => s.release id
  | .pass ms => s.pass ms

/-- A run. -/
def run (s : State) (events : List Event) : State := events.foldl step s

end State
end FirewallRollout.Rebuild
