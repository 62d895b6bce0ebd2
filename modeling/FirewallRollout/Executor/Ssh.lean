import FirewallRollout.Executor.Program
import FirewallRollout.Machine
import FirewallRollout.Text.Blank
import FirewallRollout.Text.Utf8

/-!
# The remote shell

An executor that runs each command of a plan on the server's target, one after the other, and stops
at the first that fails, runs out of time or is cut off by a cancellation.
-/
namespace FirewallRollout.Executor

/-- How a remote command ends when it is left alone. -/
inductive RemoteEnd where
  | exit (code : UInt8) (stderr : List UInt8)
  | signal (stderr : List UInt8)
  /-- The program that would run it is not launched. -/
  | unlaunched (fault : Machine.LaunchFault)

/-- What a remote command does: how long it takes, if it ends at all, and how it ends. -/
structure Remote where
  lasts : Option Nat := some 0
  ending : RemoteEnd := .exit 0 []

structure Ssh where
  binary : String := "ssh"
  options : List String := []
  targets : List (String × String) := []
  /-- How long a command may take, in milliseconds. -/
  timeout : Nat := 10000

namespace Ssh

/-- The words of a remote command. -/
def wordsFor (ssh : Ssh) (target command : String) : List String :=
  ssh.options ++ [target, "--", command]

/-- What a command says about its failure, blanks at the ends apart. -/
def cause (stderr : List UInt8) : String := Text.trim (Text.Utf8.decodeLossy stderr)

/-- Whether a command runs out of time. -/
def timesOut (ssh : Ssh) (r : Remote) : Bool := !r.lasts.any (· ≤ ssh.timeout)

/-- Why a command is not launched, if it is not. No word of a command may hold a null character. -/
def launchFault? (ssh : Ssh) (words : List String) (r : Remote) : Option Machine.LaunchFault :=
  if (ssh.binary :: words).any fun word => word.toList.contains '\x00' then some .nullCharacter
  else
    match r.ending with
    | .unlaunched fault => some fault
    | _ => none

/-- The message of a command that was launched and does not succeed; none for one that does. -/
def endFault? (ssh : Ssh) (command : String) (r : Remote) : Option String :=
  if ssh.timesOut r then some s!"'{command}' timed out after {ssh.timeout / 1000}s"
  else
    match r.ending with
    | .exit code stderr =>
      if code = 0 then none else some s!"'{command}' exited with {code.toNat}: {cause stderr}"
    | .signal stderr => some s!"'{command}' exited with signal: {cause stderr}"
    | .unlaunched _ => none

/-- The message of a command that does not succeed on a target. -/
def fault? (ssh : Ssh) (target command : String) (r : Remote) : Option String :=
  match ssh.launchFault? (ssh.wordsFor target command) r with
  | some fault => some s!"failed to spawn {ssh.binary}: {fault.message}"
  | none => ssh.endFault? command r

/-- One command of a plan, and what its fate means for the execution. -/
structure Stage where
  command : String
  /-- The rule commands applied before. -/
  done : UInt32
  onCancel : Failure
  /-- What is reported after success. -/
  report : Option UInt32
  /-- Whether a failure is put down to the cancellation when there is one by then. -/
  excused : Bool

/-- A flush that is cut off counts as a command that failed. -/
def flushStage (command : String) : Stage where
  command := command
  done := 0
  onCancel := { Failure.cancelled 0 with failed := 1 }
  report := none
  excused := false

/-- The command of a rule, of which some come before it. -/
def ruleStage (done : Nat) (command : String) : Stage where
  command := command
  done := .ofNat done
  onCancel := .cancelled (.ofNat done)
  report := some (.ofNat (done + 1))
  excused := true

/-- The commands of a plan in order. -/
def stages (plan : Plan) : List Stage :=
  plan.preamble.map flushStage ++ plan.commands.mapIdx ruleStage

/-- The words of one command, if it is launched. -/
def launched? (ssh : Ssh) (target : String) (stage : Stage) (r : Remote) : Option (List String) :=
  let words := ssh.wordsFor target stage.command
  if (ssh.launchFault? words r).isSome then none else some words

/-- How long one command is waited for. One that is not launched is known to have failed at once. -/
def awaited (ssh : Ssh) (target : String) (stage : Stage) (r : Remote) : Nat :=
  if (ssh.launched? target stage r).isNone then 0
  else if ssh.timesOut r then ssh.timeout
  else r.lasts.getD 0

/-- The acts of one command. It is started before anything can cut it off. -/
def attempt (ssh : Ssh) (target : String) (stage : Stage) (r : Remote) : List Act :=
  (ssh.launched? target stage r).toList.map Act.call
    ++ [.pause (ssh.awaited target stage r) (some stage.onCancel)]

/-- The acts that follow the failure of one command. -/
def afterFault (stage : Stage) : List Act :=
  if stage.excused then [.check stage.onCancel] else []

/-- The program of some commands, given what each of them does; where nothing is given they succeed
at once. -/
def programFrom (ssh : Ssh) (target : String) : List Stage → List Remote → Program
  | [], _ => { acts := [], ending := .ok () }
  | stage :: rest, remotes =>
    let r := remotes.headD {}
    match ssh.fault? target stage.command r with
    | some message =>
      { acts := ssh.attempt target stage r ++ afterFault stage
        ending := .error ⟨stage.done, 1, message⟩ }
    | none =>
      let p := programFrom ssh target rest remotes.tail
      { acts := ssh.attempt target stage r ++ stage.report.toList.map Act.report ++ p.acts,
        ending := p.ending }

/-- The program of a plan; without a target it fails before it starts anything. -/
def program (ssh : Ssh) (remotes : List Remote) (plan : Plan) : Program :=
  match ssh.targets.lookup plan.server with
  | some target => ssh.programFrom target (stages plan) remotes
  | none =>
    { acts := []
      ending := .error ⟨0, 1, s!"no ssh target configured for server {plan.server}"⟩ }

end Ssh
end FirewallRollout.Executor
