import FirewallRollout.Proofs.Task.Life

/-!
# The counters of a task

How many rules count as applied and how many as failed after each operation that writes the counters,
as numbers: the words never wrap, since every write is cut off at the number of rules.
-/
namespace FirewallRollout.Task
variable {t u : Task}

theorem progress_failed (t : Task) (n : UInt32) : (t.progress n).failed = t.failed := by
  unfold progress
  split <;> rfl

theorem toNat_progress_processed (n : UInt32) (hactive : t.isTerminal = false) :
    (t.progress n).processed.toNat = max t.processed.toNat (min n.toNat t.total.toNat) := by
  have hadvances : t.advances n = true ↔ t.processed.toNat < min n.toNat t.total.toNat := by
    rw [advances, hactive, Bool.not_false, Bool.true_and, decide_eq_true_eq, UInt32.lt_iff_toNat_lt,
      UInt32.toNat_min]
  unfold progress
  split
  · next hn =>
    rw [hadvances] at hn
    rw [UInt32.toNat_min]
    omega
  · next hn =>
    rw [hadvances] at hn
    omega

/-- A task that is ended from outside keeps its progress, and all other rules count as failed. -/
theorem abandon_counts {message : String} {now : Int64} (hle : t.processed.toNat ≤ t.total.toNat) :
    (t.abandon message now).processed = t.processed ∧
      t.processed.toNat + (t.abandon message now).failed.toNat = t.total.toNat := by
  refine ⟨rfl, ?_⟩
  have hrest : (t.total - t.processed).toNat = t.total.toNat - t.processed.toNat :=
    UInt32.toNat_sub_of_le _ _ (UInt32.le_iff_toNat_le.mpr hle)
  rw [abandon, endFailed, UInt32.toNat_min, hrest]
  omega

/-- A task that fails counts one rule as failed at least, if it has any. -/
theorem fail_counts {failed : UInt32} {message : String} {now : Int64}
    (h : t.fail failed message now = (.ok (), u)) :
    u.processed = t.processed ∧ u.failed.toNat = min t.total.toNat (max 1 failed.toNat) := by
  obtain ⟨-, rfl⟩ := fail_ok h
  refine ⟨rfl, ?_⟩
  rw [endFailed, UInt32.toNat_min, UInt32.toNat_max, UInt32.toNat_one]
  omega

theorem succeed_counts {now : Int64} (h : t.succeed now = (.ok (), u)) :
    u.processed = u.total ∧ u.failed = 0 := by
  obtain ⟨-, rfl⟩ := succeed_ok h
  exact ⟨rfl, rfl⟩

end FirewallRollout.Task
