import FirewallRollout.Proofs.Rebuild.Coherence

/-!
# What no step undoes

A shutdown is for ever, and so is a call: it keeps its place in the history, and its result once it
has one.
-/
namespace FirewallRollout.Rebuild

namespace Effect
open State
variable {s s' : State}

theorem isWritable_eq (h : Effect s s') : s'.registry.isWritable = s.registry.isWritable := by
  cases h with
  | triggered accepting free scripted counted created =>
    exact (Registry.create_ok created).2.2.1
  | cancelled found active => exact Registry.isWritable_amend _ _ _
  | skipped found phase entry pending unchanged => exact Registry.isWritable_amend _ _ _
  | called deadline found phase entry pending unchanged => exact Registry.isWritable_amend _ _ _
  | reported n found phase entry => exact Registry.isWritable_amend _ _ _
  | settled now found phase entry recorded => exact Registry.isWritable_amend _ _ _
  | _ => rfl

/-- A shutdown is for ever. -/
theorem accepting (h : Effect s s') (hopen : s'.shuttingDown = false) : s.shuttingDown = false := by
  cases h with
  | shutDown => cases hopen
  | _ => exact hopen

/-- The history only grows: a call stays in its place, and its result does not change. -/
theorem history (h : Effect s s') (hs : s.Coherent) {i : Nat} {c : Call}
    (hc : s.calls[i]? = some c) :
    ∃ c', s'.calls[i]? = some c' ∧ c'.plan = c.plan ∧ (c.result ≠ none → c' = c) := by
  have hreturn : ∀ {w : Worker} (result : Executor.Result), s.worker? w.task.id = some w →
      isCalling w.phase = true → ∃ c', (s.withResult w.task.id result).calls[i]? = some c' ∧
        c'.plan = c.plan ∧ (c.result ≠ none → c' = c) := by
    intro w result hw hphase
    simp only [withResult, List.getElem?_map, hc, Option.map_some]
    refine ⟨_, rfl, by split <;> rfl, fun hresult => if_neg fun hid => hresult ?_⟩
    have hmem : c ∈ s.callsOf w.task.id :=
      mem_callsOf.mpr ⟨List.mem_of_getElem? hc, by simpa using hid⟩
    rw [(hs.callsOf_calling hw hphase).2, List.mem_singleton] at hmem
    rw [hmem]
  cases h with
  | called deadline found phase entry pending unchanged =>
    refine ⟨c, ?_, rfl, fun _ => rfl⟩
    exact (List.getElem?_append_left (List.getElem?_eq_some_iff.mp hc).1).trans hc
  | finished result found phase => exact hreturn result found (by simp [phase, isCalling])
  | finishedLate result found phase => exact hreturn result found (by simp [phase, isCalling])
  | _ => exact ⟨c, hc, rfl, fun _ => rfl⟩

/-- A task that has made a call has made it for ever. -/
theorem callsOf_ne_nil (h : Effect s s') (hs : s.Coherent) {id : String}
    (hcalls : s.callsOf id ≠ []) : s'.callsOf id ≠ [] := by
  obtain ⟨c, hc⟩ := List.exists_mem_of_ne_nil _ hcalls
  obtain ⟨hmem, hid⟩ := mem_callsOf.mp hc
  obtain ⟨i, hi⟩ := List.mem_iff_getElem?.mp hmem
  obtain ⟨c', hc', hplan, -⟩ := h.history hs hi
  have hmem' : c' ∈ s'.callsOf id :=
    mem_callsOf.mpr ⟨List.mem_of_getElem? hc', by rw [hplan, hid]⟩
  exact List.ne_nil_of_mem hmem'

end Effect

end FirewallRollout.Rebuild
