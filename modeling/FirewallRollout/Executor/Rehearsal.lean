import FirewallRollout.Executor.Program

/-!
# Rehearsals

An executor that plays a given behaviour, for trying out how rebuilds take slow, failing and stubborn
executors.
-/
namespace FirewallRollout.Executor

inductive Cue where
  | report (n : UInt32)
  /-- Report every command of the plan in turn. -/
  | reportAll
  /-- Wait, and ignore a cancellation meanwhile. -/
  | sleep (ms : Nat)
  /-- Wait, and give up when cancelled. -/
  | sleepOrCancel (ms : Nat)
  | waitCancel
  | hang

/-- What an executor is to play: cues in order, and a failure at the end if it is to fail. -/
structure Behaviour where
  cues : List Cue
  failure : Option Failure := none

namespace Behaviour

/-- Reports of the first so many numbers. -/
def reports (count : Nat) : List Act := (List.range count).map fun i => .report (.ofNat (i + 1))

/-- The acts of some cues, after the last report before them. -/
def actsFrom (count : Nat) : UInt32 → List Cue → List Act
  | _, [] => []
  | _, .report n :: rest => .report n :: actsFrom count n rest
  | last, .reportAll :: rest =>
    reports count ++ actsFrom count (if count = 0 then last else .ofNat count) rest
  | last, .sleep ms :: rest => .pause ms none :: actsFrom count last rest
  | last, .sleepOrCancel ms :: rest =>
    .pause ms (some (.cancelled last)) :: actsFrom count last rest
  | last, .waitCancel :: rest => .awaitCancel :: actsFrom count last rest
  | last, .hang :: rest => .hang :: actsFrom count last rest

def program (b : Behaviour) (plan : Plan) : Program :=
  { acts := actsFrom plan.commands.length 0 b.cues, ending := b.failure.elim (.ok ()) .error }

/-- What is played when nothing else is asked for. -/
def plain : Behaviour := { cues := [.reportAll] }

/-- The behaviour of a call by its number: the last one is played again and again. -/
def ofCall (behaviours : List Behaviour) (call : Nat) : Behaviour :=
  (behaviours[call]? <|> behaviours.getLast?).getD plain

end Behaviour
end FirewallRollout.Executor
