import FirewallRollout.Proofs.Rebuild.Worker
import FirewallRollout.Proofs.Task.Life
import FirewallRollout.Rebuild.Request

/-!
# Requests and their answers

When a rebuild or a cancellation is accepted and what it leaves behind, and how little a refused one
leaves.
-/
namespace FirewallRollout.Rebuild.State

/-- A slot is given to a task only when it is free. -/
theorem register_ok {s s' : State} {t u : Task} (h : s.register t = (.ok u, s')) :
    u = t ∧ s.holder? t.server = none ∧ ∃ registry, s.registry.create t = (.ok t, registry) ∧
      s' = { s with
        registry
        leases := if s.settings.allowConcurrent then s.leases
          else Assoc.put s.leases t.server t.id } := by
  unfold register at h
  split at h
  · simp at h
  next hfree =>
  split at h
  · simp at h
  next v registry hcreate =>
  obtain ⟨rfl, -⟩ := Registry.create_ok hcreate
  split at h
  · next hconcurrent =>
    obtain ⟨rfl, rfl⟩ : v = u ∧ _ = s' := by simpa using h
    exact ⟨rfl, hfree, registry, hcreate, by rw [if_pos hconcurrent]⟩
  · next hconcurrent =>
    obtain ⟨rfl, rfl⟩ : v = u ∧ _ = s' := by simpa using h
    exact ⟨rfl, hfree, registry, hcreate, by rw [if_neg hconcurrent]⟩

theorem register_error {s s' : State} {t : Task} {e : Error} (h : s.register t = (.error e, s')) :
    s' = s ∨ s' = { s with registry := { s.registry with nextSeq := s.registry.nextSeq + 1 } } := by
  unfold register at h
  split at h
  · exact .inl (Prod.mk.inj h).2.symm
  split at h
  · next e' registry hcreate =>
    rw [Registry.create_error hcreate] at h
    exact .inr (Prod.mk.inj h).2.symm
  · split at h <;> simp at h

/-- A rebuild that is accepted, with all that was looked at for it. -/
theorem trigger_ok {s s' : State} {server id : String} {force : Bool} {now : Int64} {t : Task}
    (h : s.trigger server force id now = (.ok t, s')) :
    ∃ script total registry, s.shuttingDown = false ∧ s.holder? server = none ∧
      s.scriptFor server true .plain = .ok script ∧
      Text.word32? script.lines.length = some total ∧
      t = .create id server total force now ∧ s.registry.create t = (.ok t, registry) ∧
      s' = { s with
        registry
        leases := if s.settings.allowConcurrent then s.leases else Assoc.put s.leases server id
        workers := s.workers ++ [{ task := t, script,
                                   unchanged := !force && s.isUnchanged script }] } := by
  unfold trigger at h
  split at h
  · simp at h
  next hopen =>
  split at h
  · simp at h
  next script hscript =>
  split at h
  · simp at h
  next total htotal =>
  split at h
  · simp at h
  next u s'' hregister =>
  obtain ⟨rfl, hfree, registry, hcreate, rfl⟩ := register_ok hregister
  obtain ⟨rfl, rfl⟩ : _ = t ∧ _ = s' := by simpa using h
  exact ⟨script, total, registry, by simpa using hopen, hfree, hscript, htotal, rfl, hcreate, rfl⟩

theorem holder?_of_trigger {s : State} {server id : String} {force : Bool} {now : Int64} {t : Task}
    (h : (s.trigger server force id now).1 = .ok t) : s.holder? server = none := by
  obtain ⟨script, total, registry, -, hfree, -⟩ := trigger_ok (Prod.ext h rfl)
  exact hfree

/-- A rebuild that is refused leaves all but the order of creation as it was. -/
theorem trigger_error {s s' : State} {server id : String} {force : Bool} {now : Int64} {e : Error}
    (h : s.trigger server force id now = (.error e, s')) :
    s' = s ∨ s' = { s with registry := { s.registry with nextSeq := s.registry.nextSeq + 1 } } := by
  unfold trigger at h
  split at h
  · exact .inl (Prod.mk.inj h).2.symm
  split at h
  · exact .inl (Prod.mk.inj h).2.symm
  split at h
  · exact .inl (Prod.mk.inj h).2.symm
  split at h
  · next e' s'' hregister =>
    obtain rfl : s'' = s' := (Prod.mk.inj h).2
    exact register_error hregister
  · simp at h

section Accepting
variable {s : State} {server : String} {script : Script} {total : UInt32}
  (hopen : s.shuttingDown = false) (hscript : s.scriptFor server true .plain = .ok script)
  (hcount : Text.word32? script.lines.length = some total)
include hopen hscript hcount

/-- While rebuilds are accepted, a conflict means that the slot is taken. -/
theorem trigger_conflict_iff (force : Bool) (id : String) (now : Int64) :
    (∃ message, (s.trigger server force id now).1 = .error (.conflict message)) ↔
      s.holder? server ≠ none := by
  unfold trigger register
  simp only [hopen, hscript, hcount, Bool.false_eq_true, if_false]
  cases hholder : s.holder? (Task.create id server total force now).server with
  | some holder =>
    have htaken : s.holder? server = some holder := hholder
    simp [htaken, conflict]
  | none =>
    have hfree : s.holder? server = none := hholder
    simp only [hfree, ne_eq, not_true_eq_false, iff_false, not_exists]
    intro message hconflict
    have hne := s.registry.create_ne_conflict (.create id server total force now) message
    cases hcreate : s.registry.create (.create id server total force now) with
    | mk result registry =>
      rw [hcreate] at hne
      cases result with
      | error e => simp_all
      | ok t => cases hc : s.settings.allowConcurrent <;> simp [hcreate, hc] at hconflict

/-- A rebuild is accepted under a free identifier when the slot is free and the task can be written. -/
theorem trigger_accepts (hfree : s.holder? server = none) (hwritable : s.registry.isWritable = true)
    {id : String} (hid : s.registry.find? id = none) (force : Bool) (now : Int64) :
    (s.trigger server force id now).1 = .ok (.create id server total force now) := by
  obtain ⟨registry, hcreate⟩ :=
    (s.registry.create_isOk_iff (.create id server total force now)).mpr ⟨hid, hwritable⟩
  have hholder : s.holder? (Task.create id server total force now).server = none := hfree
  unfold trigger register
  cases hc : s.settings.allowConcurrent <;> simp [hopen, hscript, hcount, hholder, hcreate]

end Accepting

/-- A cancellation that is accepted: the task had not ended, and has failed now. -/
theorem cancel_ok {s s' : State} {id : String} {now : Int64} {t : Task}
    (h : s.cancel id now = (.ok t, s')) :
    ∃ e, s.registry.find? id = some e ∧ e.task.isTerminal = false ∧
      t = e.task.abandon Task.cancelledMessage now ∧
      s' = withWorker { s with registry := s.registry.amend e t } id
        fun w => { w with cancelled := true } := by
  unfold cancel at h
  dsimp only at h
  split at h
  · simp at h
  next u registry hupdate =>
  obtain ⟨rfl, rfl⟩ : u = t ∧ _ = s' := by simpa using h
  obtain ⟨e, v, he, hchange, rfl⟩ := Registry.update_eq_ok_iff.mp hupdate
  rcases hc : e.task.cancel now with ⟨result, v'⟩
  cases result with
  | error refusal => simp [hc] at hchange
  | ok =>
    obtain ⟨hactive, rfl⟩ := Task.cancel_ok hc
    simp only [hc, Except.ok.injEq, Prod.mk.injEq] at hchange
    obtain ⟨rfl, rfl⟩ := hchange
    exact ⟨e, he, hactive, rfl, rfl⟩

theorem cancel_error {s s' : State} {id : String} {now : Int64} {error : Error}
    (h : s.cancel id now = (.error error, s')) : s' = s := by
  unfold cancel at h
  dsimp only at h
  split at h
  · simpa [eq_comm] using (Prod.mk.inj h).2
  · simp at h

end FirewallRollout.Rebuild.State
