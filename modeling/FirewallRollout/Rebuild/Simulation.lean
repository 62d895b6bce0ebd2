import FirewallRollout.Executor.Basic
import FirewallRollout.Rebuild.Event

/-!
# Runs with an executor

The orchestrator together with the activities of its executor. At each moment every worker does all
that it can, those that wait for their executor first, in the order in which they began to wait; then
the clock moves on to the next moment at which one of them has something to do. Everything the
orchestrator does here is a step of its own.
-/
namespace FirewallRollout.Rebuild
open Executor (Activity)

structure Simulation where
  state : State
  executor : Executor
  /-- The calls under way, by task, in the order in which they began to wait. -/
  activities : List (String × Activity) := []
  /-- How many tasks were triggered with success. -/
  created : Nat := 0

namespace Simulation

def take (sim : Simulation) (e : Event) : Simulation := { sim with state := sim.state.step e }

/-- The identifier of the next task. -/
def freshId (sim : Simulation) : String := "@" ++ toString (sim.created + 1)

/-- Start a worker; a call that begins has an activity from then on. -/
def start (sim : Simulation) (id : String) : Simulation :=
  let after := sim.take (.start id)
  match after.state.calls.drop sim.state.calls.length with
  | [call] =>
    let program := sim.executor.program sim.state.calls.length call.plan
    { after with
      activities := Assoc.put sim.activities id (.start program sim.state.clock) }
  | _ => after

/-- Let the activity of a task go on: its reports first, and then its result if it ends. -/
def drive (sim : Simulation) (id : String) : Simulation :=
  match sim.activities.lookup id, sim.state.worker? id with
  | some activity, some w =>
    let (passed, next) := activity.poll sim.state.clock w.cancelled
    let sim := (Executor.reportsOf passed).foldl (fun sim n => sim.take (.report id n)) sim
    match next with
    | .inl activity =>
      if passed.isEmpty then sim
      else { sim with activities := Assoc.erase sim.activities id ++ [(id, activity)] }
    | .inr result => { sim.take (.finish id result) with activities := Assoc.erase sim.activities id }
  | _, _ => sim

/-- Drop the activity of a task that is in no call. -/
def dropIdle (sim : Simulation) (id : String) : Simulation :=
  match sim.state.workerIn? id State.isCalling with
  | some _ => sim
  | none => { sim with activities := Assoc.erase sim.activities id }

/-- All that the worker of a task can do at this moment. -/
def serve (now : Int64) (sim : Simulation) (id : String) : Simulation :=
  let sim := ((sim.start id).drive id).take (.expire id) |>.take (.notice id)
  let sim := ((sim.drive id).take (.abandon id)).dropIdle id
  (sim.take (.settle id now)).take (.release id)

/-- The tasks of the workers in the order in which they are served. -/
def turns (sim : Simulation) : List String :=
  let waiting := sim.activities.map Prod.fst
  waiting ++ (sim.state.workers.map (·.task.id)).filter fun id => !waiting.contains id

/-- All that the workers can do at this moment. -/
def serveAll (now : Int64) (sim : Simulation) : Simulation := sim.turns.foldl (serve now) sim

/-- The next moment at which a worker has something to do by itself. -/
def nextDue? (sim : Simulation) : Option Nat :=
  (sim.state.workers.filterMap Worker.deadline? ++
    sim.activities.filterMap fun a => a.2.wake?).min?

/-- The time until a worker has something to do next, of some time to come. -/
def nextWait (sim : Simulation) (ms : Nat) : Nat :=
  sim.nextDue?.elim ms fun due => max 1 (due - sim.state.clock)

theorem sub_nextWait_lt {sim : Simulation} {ms : Nat} (h : ¬ ms ≤ sim.nextWait ms) :
    ms - sim.nextWait ms < ms := by
  have hwait : 0 < sim.nextWait ms := by
    unfold nextWait at h ⊢
    cases hdue : sim.nextDue? with
    | none =>
      rw [hdue] at h
      exact absurd (Nat.le_refl ms) h
    | some due => exact Nat.lt_of_lt_of_le Nat.zero_lt_one (Nat.le_max_left 1 _)
  exact Nat.sub_lt (Nat.lt_trans hwait (Nat.lt_of_not_le h)) hwait

/-- Let some time go by, and serve the workers at every moment before its end at which one of them
has something to do. -/
def elapse (now : Int64) (sim : Simulation) (ms : Nat) : Simulation :=
  if h : ms ≤ sim.nextWait ms then sim.take (.pass ms)
  else
    have := sub_nextWait_lt h
    elapse now ((sim.take (.pass (sim.nextWait ms))).serveAll now) (ms - sim.nextWait ms)
termination_by ms
decreasing_by exact this

/-- Serve the workers now and at every moment of some time to come, its end included. -/
def advance (now : Int64) (sim : Simulation) (ms : Nat) : Simulation :=
  let sim := sim.serveAll now
  if ms = 0 then sim else (sim.elapse now ms).serveAll now

/-- How often a shutdown looks whether the workers are gone, in milliseconds. -/
def pollInterval : Nat := 20

/-- Wait until no worker is left, for some time at most. Each look comes before the workers are served
at its moment, and so does the end. -/
def drain (now : Int64) (sim : Simulation) (ms : Nat) : Simulation :=
  if sim.state.workers.isEmpty ∨ ms = 0 then sim
  else
    let wait := min pollInterval ms
    drain now ((sim.serveAll now).elapse now wait) (ms - wait)
termination_by ms
decreasing_by simp only [pollInterval] at *; omega

/-- Shut down, and wait for the workers. -/
def shutDown (now : Int64) (sim : Simulation) (ms : Nat) : Simulation :=
  (sim.take .shutDown).drain now ms

/-- Ask for a rebuild. -/
def trigger (now : Int64) (sim : Simulation) (server : String) (force : Bool) :
    Except Error Task × Simulation :=
  match sim.state.trigger server force sim.freshId now with
  | (.ok t, state) => (.ok t, { sim with state, created := sim.created + 1 })
  | (.error e, state) => (.error e, { sim with state })

end Simulation
end FirewallRollout.Rebuild
