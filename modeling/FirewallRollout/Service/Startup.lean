import FirewallRollout.Inventory
import FirewallRollout.Machine
import FirewallRollout.Registry
import FirewallRollout.Service.Endpoint
import FirewallRollout.Service.LogFilter
import FirewallRollout.Service.LogLine
import FirewallRollout.Storage.Location

/-!
# Starting the service

The order in which the service comes up: configuration, log, rules, tasks, and then the endpoint. A
step that fails ends the start with its message; the lines logged before it stay.
-/
namespace FirewallRollout.Service

/-- What the service finds around it when it starts. -/
structure Surroundings where
  argument : Option String := none
  /-- The variable that names the configuration. -/
  configVariable : Option String := none
  /-- The variable that holds a log filter. -/
  logVariable : Option String := none
  machine : Machine := {}
  /-- The moment of the start, at which tasks left over end. -/
  now : Int64 := 0

/-- The service before it answers its first request. -/
structure Ready where
  config : Config
  inventory : Inventory
  registry : Registry

/-- How a start ended: the lines it showed, and what failed if it did. -/
structure Started where
  log : List LogLine
  result : Except String Ready

namespace Startup

def configFailure (path : String) : String := s!"Failed to load config from {path}"

def logFailure : String := "Failed to initialise logging"

def rulesFailure (path : String) : String := s!"Failed to load rules from {path}"

def databaseFailure (path : String) : String := s!"Failed to open task database {path}"

def listenFailure : String := "Task API server failed"

/-- The configuration at a path. -/
def loadConfig (machine : Machine) (path : String) : Except Error Config :=
  match machine.read path with
  | .missing => Config.load none
  | .unreadable => .error (.io "not a text file")
  | .text document => Config.load (some document)

/-- The rules of the inventory file, and the line about it. -/
def loadRules (machine : Machine) (path : String) : Except Error (Inventory × LogLine) :=
  match machine.read path with
  | .missing => .ok (.empty, ⟨.inventory, .warn, s!"Rules file not found: {path}"⟩)
  | .unreadable => .error (.io "not a text file")
  | .text document => do
    let inv ← Inventory.ofToml document
    let rules := inv.allRules.length
    let servers := inv.servers.length
    .ok (inv, ⟨.inventory, .info, s!"Loaded {rules} rules for {servers} servers from {path}"⟩)

/-- The registry, and the line about its database if there is one. -/
def openRegistry (world : Surroundings) (path : Option String) :
    Except Error (Registry × List LogLine) :=
  match path with
  | none => .ok (.empty, [])
  | some path => do
    let (registry, ended) ← Registry.openFile (Storage.Location.resolve world.machine path) world.now
    let restored := registry.size
    .ok (registry, [⟨.registry, .info,
      s!"TaskRegistry loaded from {path}: {restored} tasks restored, {ended} interrupted"⟩])

/-- The lines about a service that is complete. -/
def readyLines (c : Config) (registry : Registry) : List LogLine :=
  let concurrent := if c.rebuild.allowConcurrent then "true" else "false"
  [⟨.service, .info, s!"Task registry ready ({registry.size} stored tasks)"⟩,
   ⟨.orchestrator, .info, s!"Rebuild orchestrator ready (executor: {c.executor.name}, "
      ++ s!"concurrent per server: {concurrent})"⟩]

/-- All lines of a start with a configuration, and its result. -/
def bringUp (world : Surroundings) (path : String) (c : Config) : Started :=
  let greeting : LogLine := ⟨.service, .info, s!"fwrebuild starting (config: {path})"⟩
  match loadRules world.machine c.rulesFile with
  | .error _ => ⟨[greeting], .error (rulesFailure c.rulesFile)⟩
  | .ok (inv, rulesLine) =>
    let inventory := c.servers.foldl (fun inv s => inv.register s.1) inv
    match openRegistry world c.taskDatabase with
    | .error _ => ⟨[greeting, rulesLine], .error (databaseFailure (c.taskDatabase.getD ""))⟩
    | .ok (registry, registryLines) =>
      let lines := greeting :: rulesLine :: registryLines ++ readyLines c registry
      if Endpoint.canListen c.listen then
        let listening : LogLine := ⟨.api, .info, s!"Task API listening on http://{c.listen}"⟩
        ⟨lines ++ [listening], .ok { config := c, inventory, registry }⟩
      else ⟨lines, .error listenFailure⟩

/-- The start of the service, with the lines that its filter shows, in its format. -/
def run (world : Surroundings) : Started :=
  let path := Config.path world.argument world.configVariable
  match loadConfig world.machine path with
  | .error _ => ⟨[], .error (configFailure path)⟩
  | .ok c =>
    match LogFilter.install false world.logVariable c.logLevel with
    | .error _ => ⟨[], .error logFailure⟩
    | .ok filter =>
      let started := bringUp world path c
      let shown := started.log.filter fun line => filter.shows line.source.target line.level
      { started with log := shown.map (LogLine.shownIn c.logFormat) }

end Startup
end FirewallRollout.Service
