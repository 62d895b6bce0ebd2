import FirewallRollout.Service.Config
import FirewallRollout.Service.LogDirective

/-!
# Lines of the log

Where a line comes from, and how its message is written. The compact format leaves no character in
place that a terminal could take for a command; the JSON format has the quoting of JSON.
-/
namespace FirewallRollout.Service

/-- The part of the service that a line comes from. -/
inductive LogSource where
  | service
  | inventory
  | registry
  | orchestrator
  | api
  deriving DecidableEq

/-- The target that a filter knows a part by. -/
def LogSource.target : LogSource → String
  | service => "fwrebuild"
  | inventory => "fwrebuild::rule_store"
  | registry => "fwrebuild::registry"
  | orchestrator => "fwrebuild::orchestrator"
  | api => "fwrebuild::api"

structure LogLine where
  source : LogSource
  level : LogLevel
  message : String

namespace LogFormat

/-- The two hexadecimal digits of a small number. -/
def twoDigits (n : Nat) : List Char := [Nat.digitChar (n / 16), Nat.digitChar (n % 16)]

/-- Whether a character of ASCII moves a terminal's cursor back or begins a command to it. -/
def isTerminalControl (c : Char) : Bool :=
  ['\x07', '\x08', '\x0C', '\x1B', '\x7F'].contains c

/-- A character of a compact message: controls of terminals are spelled out. -/
def escape (c : Char) : List Char :=
  if isTerminalControl c then '\\' :: 'x' :: twoDigits c.toNat
  else if 0x80 ≤ c.toNat && c.toNat ≤ 0x9F then
    '\\' :: 'u' :: '\x7B' :: twoDigits c.toNat ++ ['\x7D']
  else [c]

/-- A message as a format shows it. -/
def shown (format : LogFormat) (message : String) : String :=
  match format with
  | compact => .ofList (message.toList.flatMap escape)
  | json => message

end LogFormat

/-- A line with its message as a format shows it. -/
def LogLine.shownIn (format : LogFormat) (line : LogLine) : LogLine :=
  { line with message := format.shown line.message }

end FirewallRollout.Service
