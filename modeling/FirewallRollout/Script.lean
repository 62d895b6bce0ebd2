import FirewallRollout.Rule.Compile
import FirewallRollout.Sha256
import FirewallRollout.Text.Utf8

/-!
# Scripts

The script of a server: a banner, a flush of every table, and one command for each selected rule in
script order. The fingerprint is the digest of the rule commands alone, so that neither format, nor
server, nor what a rule is called changes it.
-/
namespace FirewallRollout

namespace Script

inductive Format where
  | plain
  | bash
  deriving DecidableEq

namespace Format

def name : Format → String
  | plain => "plain"
  | bash => "bash"

/-- The format that a text names; blank is plain. -/
def parse? (s : String) : Option Format :=
  match Text.foldLower (Text.trim s) with
  | "" | "plain" => some plain
  | "bash" => some bash
  | _ => none

/-- A format by name, or the fault in the field `format`. -/
def parse (s : String) : Except Error Format :=
  match parse? s with
  | some f => .ok f
  | none =>
    .error (.validation "format" s!"unknown script format '{Text.foldLower (Text.trim s)}'")

end Format

/-- One compiled rule. -/
structure Line where
  id : RuleId
  priority : Int64
  enabled : Bool
  command : Command
  deriving DecidableEq

/-- Why rules do not make up a script. -/
inductive Fault where
  /-- A rule of another server. -/
  | foreign (id : RuleId) (owner server : String)
  /-- A rule without a command. -/
  | rule (id : RuleId) (fault : FirewallRollout.Fault)
  deriving DecidableEq

def Fault.error : Fault → Error
  | foreign id owner server =>
    .validation "serverId" s!"rule {id.display} belongs to server '{owner}', not '{server}'"
  | rule id fault => .validation fault.field s!"rule {id.display}: {fault.message}"

/-- The commands that empty every table. -/
def flushes : List String :=
  ["iptables -F", "iptables -t nat -F", "iptables -t mangle -F", "iptables -t raw -F"]

end Script

structure Script where
  server : String
  format : Script.Format
  onlyEnabled : Bool
  lines : List Script.Line
  deriving DecidableEq

namespace Script

/-- The texts of the rule commands in order. -/
def commands (s : Script) : List String := s.lines.map fun line => line.command.text

/-- The octets that the fingerprint digests: every command, followed by a line feed. -/
def hashed (s : Script) : List UInt8 :=
  s.commands.flatMap fun command => Text.Utf8.encode command ++ [0x0A]

def fingerprint (s : Script) : String := Sha256.hex (Sha256.digest s.hashed)

/-- Which rules were taken, in words. -/
def selection (s : Script) : String :=
  if s.onlyEnabled then "enabled only" else "including disabled"

/-- The lines of the text, each to be followed by a line feed. -/
def textLines (s : Script) : List String :=
  (if s.format = .bash then ["#!/bin/bash"] else [])
    ++ [s!"# iptables rules for server {s.server}",
        s!"# {s.lines.length} rule(s), {s.selection}",
        ""]
    ++ flushes
    ++ (if s.lines.isEmpty then [] else [""])
    ++ s.commands

def text (s : Script) : String := String.join (s.textLines.map (· ++ "\n"))

/-- The compiled line of a rule. -/
def lineOf (r : Rule) : Except Fault Line :=
  match r.compile with
  | .ok command => .ok { id := r.id, priority := r.priority, enabled := r.enabled, command }
  | .error fault => .error (.rule r.id fault)

/-- The rules that a script takes, in script order. -/
def selected (rules : List Rule) (onlyEnabled : Bool) : List Rule :=
  Rule.inOrder (rules.filter fun r => !onlyEnabled || r.enabled)

/-- The script of a server's rules. A rule of another server is refused before anything else. -/
def assemble (server : String) (rules : List Rule) (onlyEnabled : Bool) (format : Format) :
    Except Fault Script :=
  match rules.find? (·.server != server) with
  | some r => .error (.foreign r.id r.server server)
  | none => do
    let lines ← (selected rules onlyEnabled).mapM lineOf
    .ok { server, format, onlyEnabled, lines }

end Script
end FirewallRollout
