import FirewallRollout.Text.AsciiCase
import FirewallRollout.Text.Percent

/-!
# Routes

The paths of the interface. A path is matched as it is written, segment by segment; the segment that
names a server or a task may hold anything, but is not empty at the end of a path, and is then
percent-decoded.
-/
namespace FirewallRollout.Api

/-- A route, with the segment that names something as it is written. -/
inductive Route where
  | health
  | serverRules (segment : String)
  | serverScript (segment : String)
  | serverRebuild (segment : String)
  | tasks
  | task (segment : String)
  | taskCancel (segment : String)
  | stats
  deriving DecidableEq

/-- What can be done at a route. -/
inductive Access where
  | read
  | act
  deriving DecidableEq

namespace Route

def access : Route → Access
  | serverRebuild _ | taskCancel _ => .act
  | _ => .read

/-- The route of a path. -/
def ofPath? (path : String) : Option Route :=
  match path.splitOn "/" with
  | ["", "health"] => some health
  | ["", "tasks"] => some tasks
  | ["", "stats"] => some stats
  | ["", "tasks", segment] => if segment = "" then none else some (task segment)
  | ["", "tasks", segment, "cancel"] => some (taskCancel segment)
  | ["", "servers", segment, "rules"] => some (serverRules segment)
  | ["", "servers", segment, "script"] => some (serverScript segment)
  | ["", "servers", segment, "rebuild"] => some (serverRebuild segment)
  | _ => none

/-- Whether a character may stand in the scheme of a target. -/
def isSchemeChar (c : Char) : Bool := Text.isAsciiAlphanumeric c || c == '+' || c == '-' || c == '.'

/-- A target without a scheme and a host. The path after a host is the root if nothing is said. -/
def withoutHost (cs : List Char) : List Char :=
  match cs.takeWhile isSchemeChar, cs.dropWhile isSchemeChar with
  | _ :: _, ':' :: '/' :: '/' :: rest =>
    match rest.dropWhile fun c => c != '/' && c != '?' with
    | '/' :: rest => '/' :: rest
    | rest => '/' :: rest
  | _, _ => cs

/-- The path and the query of a target; a fragment belongs to neither. -/
def splitTarget (target : String) : String × String :=
  let cs := withoutHost (target.toList.takeWhile (· != '#'))
  (.ofList (cs.takeWhile (· != '?')), .ofList ((cs.dropWhile (· != '?')).drop 1))

end Route
end FirewallRollout.Api
