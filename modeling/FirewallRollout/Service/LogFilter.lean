import FirewallRollout.Error
import FirewallRollout.Service.LogDirective

/-!
# Log filters

A filter is a list of directives. Of those that are about a line, the one that says so most closely
decides whether the line is shown.
-/
namespace FirewallRollout.Service

abbrev LogFilter := List LogDirective

namespace LogFilter

/-- The directives of a list with commas; none at all let only errors through. -/
def parse? (s : String) : Option LogFilter :=
  match ((s.splitOn ",").filter (· != "")).mapM LogDirective.parse? with
  | some [] => some [{ level := .error }]
  | directives => directives

/-- The directive that decides about a target: the closest one, of equals the last. -/
def deciding? (f : LogFilter) (target : String) : Option LogDirective :=
  (f.filter fun d => d.isStatic && d.fits target).foldl (fun best d =>
    if best.all fun (b : LogDirective) => b.closeness ≤ d.closeness then some d else best) none

/-- Whether a line of a target and a level is shown. -/
def shows (f : LogFilter) (target : String) (level : LogLevel) : Bool :=
  (f.deciding? target).any fun d => decide (level.rank ≤ d.level.rank)

/-- The filter in force: that of a variable if it reads as one, or else the configured level. -/
def choose (fromVariable : Option String) (configured : String) : Except Error LogFilter :=
  match fromVariable.bind parse? with
  | some f => .ok f
  | none =>
    match parse? configured with
    | some f => .ok f
    | none => .error (.config s!"invalid log level '{configured}'")

/-- Put a filter in force. There is room for one log only. -/
def install (inPlace : Bool) (fromVariable : Option String) (configured : String) :
    Except Error LogFilter :=
  match choose fromVariable configured with
  | .error e => .error e
  | .ok f => if inPlace then .error (.config "failed to set tracing subscriber") else .ok f

end LogFilter
end FirewallRollout.Service
