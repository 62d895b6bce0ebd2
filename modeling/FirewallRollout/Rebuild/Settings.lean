/-!
# Settings of rebuilds

How long a rebuild may take, how long a cancelled one may linger, and whether a server may have
several at once. Durations are seconds in 64-bit words.
-/
namespace FirewallRollout.Rebuild

structure Settings where
  /-- Whether several rebuilds of one server may be in flight. -/
  allowConcurrent : Bool := false
  baseTimeout : UInt64 := 30
  perRuleTimeout : UInt64 := 2
  /-- How long a cancelled worker waits for its executor to stop. -/
  cancelGrace : UInt64 := 5
  deriving DecidableEq

/-- The greatest duration. -/
def maxSeconds : Nat := UInt64.size - 1

namespace Settings

/-- The time that a rebuild of some rules may take, in seconds; it never passes the greatest. -/
def budget (s : Settings) (total : UInt32) : Nat :=
  min maxSeconds (s.baseTimeout.toNat + s.perRuleTimeout.toNat * total.toNat)

end Settings
end FirewallRollout.Rebuild
