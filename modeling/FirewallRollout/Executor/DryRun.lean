import FirewallRollout.Executor.Program

/-!
# The dry run

An executor that runs nothing: it waits a while for each rule and reports it.
-/
namespace FirewallRollout.Executor.DryRun

/-- The acts for one rule, of which some come before it. -/
def actsFor (delay : Nat) (done : Nat) : List Act :=
  let cancelled := Failure.cancelled (.ofNat done)
  [if delay = 0 then .check cancelled else .pause delay (some cancelled), .report (.ofNat (done + 1))]

/-- The program of a plan: it fails only when it is cancelled. -/
def program (delay : Nat) (plan : Plan) : Program :=
  { acts := (List.range plan.commands.length).flatMap (actsFor delay), ending := .ok () }

end FirewallRollout.Executor.DryRun
