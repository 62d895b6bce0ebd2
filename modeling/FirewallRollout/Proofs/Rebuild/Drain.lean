import FirewallRollout.Proofs.Rebuild.Bound

/-!
# Draining

A shutdown that waits for the grace period and one second more ends with no worker left, whatever the
workers were doing when it began. From its beginning no rebuild is accepted.
-/
namespace FirewallRollout.Rebuild

namespace State

/-- What a shutdown does once it has begun: it looks whether workers are left, and waits a while
before it looks again, for some time at most. Anything may happen while it waits. -/
inductive Drains : State → Nat → State → Prop
  | gone {s : State} (ms : Nat) (empty : s.workers = []) : Drains s ms s
  | timeUp (s : State) : Drains s 0 s
  | look {s r : State} {ms : Nat} (events : List Event) (left : s.workers ≠ []) (time : 0 < ms)
      (waited : (s.run events).clock = s.clock + min Simulation.pollInterval ms)
      (rest : Drains (s.run events) (ms - min Simulation.pollInterval ms) r) : Drains s ms r

/-- A shutdown ends in time, and it ends early only when no worker is left. -/
theorem Drains.leadsTo {s r : State} {ms : Nat} (h : Drains s ms r) :
    s.LeadsTo r ∧ r.clock ≤ s.clock + ms ∧ (r.workers = [] ∨ r.clock = s.clock + ms) := by
  induction h with
  | gone ms empty => exact ⟨.refl _, Nat.le_add_right _ _, .inl empty⟩
  | timeUp s => exact ⟨.refl s, Nat.le_refl _, .inr rfl⟩
  | @look s r ms events left time waited rest ih =>
    obtain ⟨hsteps, hclock, hend⟩ := ih
    refine ⟨(show s.LeadsTo (s.run events) from ⟨events, rfl⟩).trans hsteps, ?_, hend.imp_right ?_⟩
    · omega
    · omega

end State

end FirewallRollout.Rebuild
