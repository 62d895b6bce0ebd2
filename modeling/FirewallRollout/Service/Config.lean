import FirewallRollout.Datum.Layout
import FirewallRollout.Error
import FirewallRollout.Rebuild.Settings
import FirewallRollout.Toml.Reader

/-!
# The configuration of the service

A TOML document with a default for every setting. A configuration holds no timeout of zero, and a
target for every server when commands go out over a remote shell.
-/
namespace FirewallRollout.Service

inductive LogFormat where
  | compact
  | json
  deriving DecidableEq

def LogFormat.name : LogFormat → String
  | compact => "compact"
  | json => "json"

inductive ExecutorKind where
  | dryRun
  | ssh
  deriving DecidableEq

def ExecutorKind.name : ExecutorKind → String
  | dryRun => "dry-run"
  | ssh => "ssh"

structure Config where
  listen : String := "0.0.0.0:9090"
  logLevel : String := "info"
  logFormat : LogFormat := .compact
  rebuild : Rebuild.Settings := {}
  executor : ExecutorKind := .dryRun
  sshBinary : String := "ssh"
  sshOptions : List String := ["-o", "BatchMode=yes", "-o", "ConnectTimeout=10"]
  commandTimeout : UInt64 := 10
  dryRunDelay : UInt64 := 0
  /-- The path of the task database; tasks are kept in memory without one. -/
  taskDatabase : Option String := none
  rulesFile : String := "/etc/fwrebuild/rules.toml"
  /-- The servers in ascending order, each with the target of its remote shell. -/
  servers : List (String × Option String) := []
  deriving DecidableEq

namespace Config

/-- A field that may be left out. -/
def field (name : String) : Field := { name, trailing := true }

/-- One of several names: alone, or as the key of a record of one empty value. -/
def choice {α : Type} (names : List (String × α)) : Datum → Option α
  | .text name | .record [(name, .record [])] | .record [(name, .list [])] => names.lookup name
  | _ => none

def texts? (d : Datum) : Option (List String) := d.list?.bind (·.mapM Datum.text?)

def readHttp (c : Config) (d : Datum) : Option Config := do
  let fields ← Layout.read? [field "listen"] .passedOver d
  let listen ← fields.defaulted "listen" Datum.text? c.listen
  some { c with listen }

def readLogging (c : Config) (d : Datum) : Option Config := do
  let fields ← Layout.read? [field "level", field "format"] .passedOver d
  let logLevel ← fields.defaulted "level" Datum.text? c.logLevel
  let logFormat ← fields.defaulted "format" (choice [("compact", .compact), ("json", .json)])
    c.logFormat
  some { c with logLevel, logFormat }

def readRebuild (c : Config) (d : Datum) : Option Config := do
  let fields ← Layout.read? [field "allow_concurrent", field "base_timeout_secs",
    field "per_rule_timeout_secs", field "cancel_grace_secs"] .passedOver d
  let s := c.rebuild
  let allowConcurrent ← fields.defaulted "allow_concurrent" Datum.bool? s.allowConcurrent
  let baseTimeout ← fields.defaulted "base_timeout_secs" Datum.word64? s.baseTimeout
  let perRuleTimeout ← fields.defaulted "per_rule_timeout_secs" Datum.word64? s.perRuleTimeout
  let cancelGrace ← fields.defaulted "cancel_grace_secs" Datum.word64? s.cancelGrace
  some { c with rebuild := { allowConcurrent, baseTimeout, perRuleTimeout, cancelGrace } }

def readExecutor (c : Config) (d : Datum) : Option Config := do
  let fields ← Layout.read? [field "kind", field "ssh_binary", field "ssh_options",
    field "command_timeout_secs", field "dry_run_delay_ms"] .passedOver d
  let executor ← fields.defaulted "kind" (choice [("dry-run", .dryRun), ("ssh", .ssh)]) c.executor
  let sshBinary ← fields.defaulted "ssh_binary" Datum.text? c.sshBinary
  let sshOptions ← fields.defaulted "ssh_options" texts? c.sshOptions
  let commandTimeout ← fields.defaulted "command_timeout_secs" Datum.word64? c.commandTimeout
  let dryRunDelay ← fields.defaulted "dry_run_delay_ms" Datum.word64? c.dryRunDelay
  some { c with executor, sshBinary, sshOptions, commandTimeout, dryRunDelay }

def readStorage (c : Config) (d : Datum) : Option Config := do
  let fields ← Layout.read? [{ name := "task_db" }] .passedOver d
  let taskDatabase ← fields.optional "task_db" Datum.text?
  some { c with taskDatabase }

/-- The target of a server, if it has one. -/
def readServer (d : Datum) : Option (Option String) := do
  let fields ← Layout.read? [{ name := "ssh_target" }] .passedOver d
  fields.optional "ssh_target" Datum.text?

def readServers (c : Config) : Datum → Option Config
  | .record entries => do
    let servers ← entries.mapM fun e => (readServer e.2).map fun target => (e.1, target)
    some { c with servers := servers.mergeSort fun a b => decide (a.1 ≤ b.1) }
  | _ => none

/-- One section, if it is there. -/
def partOf (fields : Fields) (name : String) (read : Config → Datum → Option Config)
    (c : Config) : Option Config :=
  fields.defaulted name (read c) c

def ofDatum? (d : Datum) : Option Config := do
  let fields ← Layout.read? [field "http", field "logging", field "rebuild", field "executor",
    field "storage", field "rules_file", field "servers"] .passedOver d
  let c ← partOf fields "http" readHttp {}
  let c ← partOf fields "logging" readLogging c
  let c ← partOf fields "rebuild" readRebuild c
  let c ← partOf fields "executor" readExecutor c
  let c ← partOf fields "storage" readStorage c
  let rulesFile ← fields.defaulted "rules_file" Datum.text? c.rulesFile
  partOf fields "servers" readServers { c with rulesFile }

/-- Why a configuration does not do. -/
inductive Fault where
  | unreadable
  | zeroBaseTimeout
  | zeroCommandTimeout
  | missingTarget (server : String)
  deriving DecidableEq

def Fault.message : Fault → String
  | unreadable => "invalid config"
  | zeroBaseTimeout => "rebuild.base_timeout_secs must be greater than zero"
  | zeroCommandTimeout => "executor.command_timeout_secs must be greater than zero"
  | missingTarget server => s!"server '{server}' has no ssh_target but executor.kind is ssh"

/-- What is wrong with a configuration that was read. -/
def fault? (c : Config) : Option Fault :=
  if c.rebuild.baseTimeout = 0 then some .zeroBaseTimeout
  else if c.commandTimeout = 0 then some .zeroCommandTimeout
  else if c.executor = .ssh then (c.servers.find? (·.2.isNone)).map fun s => .missingTarget s.1
  else none

/-- The configuration that a document describes. -/
def ofToml (document : String) : Except Fault Config :=
  match (Toml.parse? document).bind ofDatum? with
  | none => .error .unreadable
  | some c => c.fault?.elim (.ok c) .error

/-- The configuration in a file; without a file there are the defaults. -/
def load (contents : Option String) : Except Error Config :=
  match contents with
  | none => .ok {}
  | some document =>
    match ofToml document with
    | .ok c => .ok c
    | .error fault => .error (.config fault.message)

/-- The targets of the servers that have one. -/
def targets (c : Config) : List (String × String) :=
  c.servers.filterMap fun s => s.2.map fun target => (s.1, target)

/-- The path of the configuration without an argument or a variable that names one. -/
def defaultPath : String := "/etc/fwrebuild/config.toml"

/-- The path of the configuration: an argument comes first, then the variable. -/
def path (argument fromVariable : Option String) : String := (argument <|> fromVariable).getD defaultPath

end Config
end FirewallRollout.Service
