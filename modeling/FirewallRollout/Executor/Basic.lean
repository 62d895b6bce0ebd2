import FirewallRollout.Executor.DryRun
import FirewallRollout.Executor.Rehearsal
import FirewallRollout.Executor.Ssh

/-!
# Executors

The ways to apply a plan, each by the program it makes of it.
-/
namespace FirewallRollout

inductive Executor where
  | dryRun (delay : Nat)
  /-- A remote shell, and what its commands do. -/
  | ssh (ssh : Executor.Ssh) (remotes : List Executor.Remote)
  | rehearsal (behaviours : List Executor.Behaviour)

namespace Executor

def name : Executor → String
  | dryRun _ => "dry-run"
  | ssh .. => "ssh"
  | rehearsal _ => "rehearsal"

/-- The program of a plan in the call of a number. -/
def program (e : Executor) (call : Nat) (plan : Plan) : Program :=
  match e with
  | dryRun delay => DryRun.program delay plan
  | ssh shell remotes => shell.program remotes plan
  | rehearsal behaviours => (Behaviour.ofCall behaviours call).program plan

end Executor
end FirewallRollout
