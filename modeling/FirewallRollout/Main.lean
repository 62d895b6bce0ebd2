import FirewallRollout.Service.Startup

/-!
# The command line

Starts the service from its files, shows the log, and ends with the message of what failed. Answering
connections is left to the host that the service runs in.
-/
namespace FirewallRollout.Service

/-- What stands at a place, if anything does. What is there and is no text passes for a directory. -/
def entryAt (place : Machine.Place) : IO (Option Machine.Entry) := do
  try
    return some (.text (← IO.FS.readFile ("/" ++ String.intercalate "/" place)))
  catch
    | .noFileOrDirectory .. => return none
    | _ => return some .directory

/-- A machine after a look at every place that some names lead to. -/
def exploredFrom (machine : Machine) (place : Machine.Place) : List String → IO Machine
  | [] => return machine
  | name :: rest => do
    let place := Machine.enter place name
    let machine := (← entryAt place).elim machine (machine.put place)
    exploredFrom machine place rest

/-- A machine after a look along a path. -/
def explored (machine : Machine) (path : String) : IO Machine :=
  if path.toList.head? = some '/' then exploredFrom machine [] (path.splitOn "/")
  else exploredFrom machine [] (machine.workingDirectory ++ path.splitOn "/")

/-- The machine as far as a start looks at it: the configuration, and what the configuration names. -/
def machineFor (path : String) : IO Machine := do
  let directory := (← IO.currentDir).toString
  let machine ← explored { workingDirectory := (directory.splitOn "/").filter (· != "") } path
  match Startup.loadConfig machine path with
  | .error _ => return machine
  | .ok c =>
    let machine ← explored machine c.rulesFile
    c.taskDatabase.elim (pure machine) (explored machine)

end FirewallRollout.Service

open FirewallRollout FirewallRollout.Service in
def main (arguments : List String) : IO UInt32 := do
  let argument := arguments.head?
  let configVariable ← IO.getEnv "FWREBUILD_CONFIG"
  let logVariable ← IO.getEnv "RUST_LOG"
  let machine ← machineFor (Config.path argument configVariable)
  let started := Startup.run { argument, configVariable, logVariable, machine }
  for line in started.log do
    IO.println s!"{line.level.name} {line.message}"
  match started.result with
  | .ok _ => return 0
  | .error message =>
    IO.eprintln s!"Error: {message}"
    return 1
