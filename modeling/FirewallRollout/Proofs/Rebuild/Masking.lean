import FirewallRollout.Proofs.Rebuild.History
import FirewallRollout.Proofs.Rebuild.Jobs

/-!
# When a failure may be masked

A call flushes the tables of its server, so that after a failure nothing is known to be applied until
a later call returns well. With concurrent rebuilds a fingerprint may outlive such a failure: a
worker that began earlier, or that decided earlier to skip its call, has its commands remembered when
it is done, and a rebuild that is triggered then is skipped. Without such a worker this cannot come.
-/
namespace FirewallRollout.Rebuild

namespace State

/-- A call for a server that began after the `k`-th call of all has returned well. -/
def AppliedSince (s : State) (server : String) (k : Nat) : Prop :=
  ∃ (i : Nat) (c : Call), k < i ∧ s.calls[i]? = some c ∧ c.plan.server = server ∧
    c.result = some (.ok ())

/-- From here, a rebuild may be triggered and become a success without a call of its own, and without
a call that began after the `k`-th and returned well. -/
def MasksFailure (s : State) (server : String) (k : Nat) : Prop :=
  ∃ (before after : List Event) (id : String) (force : Bool) (now : Int64) (t u : Task),
    ((s.run before).trigger server force id now).1 = .ok t ∧
    (((s.run before).step (.trigger server force id now)).run after).registry.get id = .ok u ∧
    u.status = .success ∧
    (((s.run before).step (.trigger server force id now)).run after).callsOf id = [] ∧
    ¬ (((s.run before).step (.trigger server force id now)).run after).AppliedSince server k

/-- Whether a worker in a phase may still end with its commands applied by a call that has begun. -/
def pursues : Phase → Bool
  | .executing _ | .settling .applied => true
  | _ => false

/-- A live worker of a server that may have its commands remembered without a call that begins after
the `k`-th: it skips its call, or its call began no later. -/
def Restores (s : State) (server : String) (k : Nat) (id : String) (w : Worker) : Prop :=
  s.Live id w ∧ w.task.server = server ∧ (w.unchanged = true ∨
    pursues w.phase = true ∧ ∃ (i : Nat) (c : Call), i ≤ k ∧ s.calls[i]? = some c ∧ c.plan.task = id)

/-- Rebuilds are accepted, and a fingerprint of the server is remembered or may come to be. -/
def MayMask (s : State) (server : String) (k : Nat) : Prop :=
  s.shuttingDown = false ∧ s.registry.isWritable = true ∧
    ((s.fingerprints.lookup server).isSome ∨ ∃ id w, s.Restores server k id w)

end State

namespace Effect
open State
variable {s s' : State}

theorem appliedSince (h : Effect s s') (hs : s.Coherent) {server : String} {k : Nat}
    (hsince : s.AppliedSince server k) : s'.AppliedSince server k := by
  obtain ⟨i, c, hi, hc, hserver, hok⟩ := hsince
  obtain ⟨c', hc', -, hsame⟩ := h.history hs hc
  obtain rfl := hsame (by simp [hok])
  exact ⟨i, c', hi, hc', hserver, hok⟩

end Effect

/-- Nothing is remembered for a server, and no worker may bring it back. -/
structure State.Cleared (s : State) (server : String) (k : Nat) : Prop where
  coherent : s.Coherent
  begun : k < s.calls.length
  forgotten : s.fingerprints.lookup server = none
  unrestored : ∀ id w, ¬ s.Restores server k id w

/-- A worker that may end with its commands applied has been pursuing this since its call began. -/
theorem Phase.Next.pursues {p p' : Phase} (h : p.Next p') (hp' : State.pursues p' = true) :
    State.pursues p = true ∨ p = .queued ∨ ∃ limit, p = .winding .applied limit := by
  cases h with
  | stay => exact .inl hp'
  | refuse => cases hp'
  | skip => exact .inr (.inl rfl)
  | call deadline => exact .inr (.inl rfl)
  | finish deadline outcome => exact .inl rfl
  | wind deadline limit given_up => cases hp'
  | stop outcome limit =>
    cases outcome with
    | applied => exact .inr (.inr ⟨limit, rfl⟩)
    | failed f => cases hp'
    | timedOut => cases hp'
    | interrupted => cases hp'
  | settle outcome => cases hp'

namespace State
variable {s s' : State} {server : String} {k : Nat}

/-- A task whose worker is queued or has given up on a call that went well has made no call. -/
theorem Coherent.pursues_of_next (hs : s.Coherent) {id : String} {w w' : Worker}
    (hw : s.worker? id = some w) (hnext : w.phase.Next w'.phase) (hcalls : s.callsOf id ≠ [])
    (hpursues : pursues w'.phase = true) : pursues w.phase = true := by
  have hcalled := (hs.fits hw).called
  rw [id_of_worker? hw] at hcalled
  rcases hnext.pursues hpursues with hp | hp | ⟨limit, hp⟩
  · exact hp
  · rw [Worker.Called, hp] at hcalled
    exact absurd hcalled hcalls
  · rw [Worker.Called, hp] at hcalled
    exact absurd rfl hcalled.2.1

theorem pursues_iff {p : Phase} :
    pursues p = true ↔ (∃ deadline, p = .executing deadline) ∨ p = .settling .applied := by
  cases p with
  | settling outcome => cases outcome <;> simp [pursues]
  | _ => simp [pursues]

/-- A worker that skips its call goes straight from the queue to success. -/
theorem Coherent.phase_of_unchanged (hs : s.Coherent) {id : String} {w : Worker}
    (hw : s.worker? id = some w) (hun : w.unchanged = true) :
    w.phase = .queued ∨ w.phase = .settling .applied ∨ w.phase = .releasing := by
  have hcalled := (hs.fits hw).called
  unfold Worker.Called at hcalled
  split at hcalled
  · next hphase => exact .inl hphase
  · simp [hun] at hcalled
  · simp [hun] at hcalled
  · next hphase => exact .inr (.inl hphase)
  · simp [hun] at hcalled
  · next hphase => exact .inr (.inr hphase)

/-- A worker that restores a fingerprint is to skip its call, is in it, or settles success. -/
theorem Coherent.phase_of_restores (hs : s.Coherent) {id : String} {w : Worker}
    (h : s.Restores server k id w) :
    (w.phase = .queued ∧ w.unchanged = true) ∨
    ((∃ deadline, w.phase = .executing deadline) ∧
      ∃ (i : Nat) (c : Call), i ≤ k ∧ s.calls[i]? = some c ∧ c.plan.task = id) ∨
    w.phase = .settling .applied := by
  obtain ⟨hlive, -, hun | ⟨hpursues, hearly⟩⟩ := h
  · rcases hs.phase_of_unchanged hlive.1 hun with hphase | hphase | hphase
    · exact .inl ⟨hphase, hun⟩
    · exact .inr (.inr hphase)
    · rw [Live, hs.hasEnded_of_releasing hlive.1 hphase] at hlive
      cases hlive.2
  · rcases pursues_iff.mp hpursues with hphase | hphase
    · exact .inr (.inl ⟨hphase, hearly⟩)
    · exact .inr (.inr hphase)

/-- A worker that restores a fingerprint after a step did so before. -/
theorem Cleared.not_restores (hs : s.Cleared server k) (h : Effect s s') {id : String} {w' : Worker} :
    ¬ s'.Restores server k id w' := by
  rintro ⟨hlive, hserver, hcase⟩
  rcases h.live_cases hs.coherent hlive with ⟨w, hw, hcontinues⟩ | hnew
  · refine hs.unrestored id w ⟨hw, by rw [← hcontinues.task, hserver], ?_⟩
    rcases hcase with hun | ⟨hpursues, i, c', hi, hc', hid⟩
    · exact .inl (by rw [← hcontinues.unchanged, hun])
    · obtain ⟨c, hc⟩ : ∃ c, s.calls[i]? = some c :=
        ⟨_, List.getElem?_eq_getElem (Nat.lt_of_le_of_lt hi hs.begun)⟩
      obtain ⟨c'', hc'', hplan, -⟩ := h.history hs.coherent hc
      obtain rfl := Option.some.inj (hc'.symm.trans hc'')
      rw [hplan] at hid
      have hmem : c ∈ s.callsOf id := mem_callsOf.mpr ⟨List.mem_of_getElem? hc, hid⟩
      exact .inr ⟨hs.coherent.pursues_of_next hw.1 hcontinues.phase (List.ne_nil_of_mem hmem)
        hpursues, i, c, hi, hc, hid⟩
  · rcases hcase with hun | ⟨hpursues, -⟩
    · have hsame := hnew.unchanged hun
      rw [isUnchanged, beq_iff_eq, hnew.scripted.server_eq, hserver, hs.forgotten] at hsame
      cases hsame
    · rw [hnew.phase] at hpursues
      cases hpursues

/-- A worker that settles success restores the fingerprint, or its call began later. -/
theorem Coherent.restores_or_appliedSince (hs : s.Coherent) {w : Worker}
    (hlive : s.Live w.task.id w) (phase : w.phase = .settling .applied) (k : Nat) :
    s.Restores w.task.server k w.task.id w ∨ s.AppliedSince w.task.server k := by
  cases hun : w.unchanged with
  | true => exact .inl ⟨hlive, rfl, .inl hun⟩
  | false =>
    have hmem : { plan := w.plan, result := some (.ok ()) } ∈ s.callsOf w.task.id := by
      rw [hs.callsOf_applied hlive.1 phase hun]
      exact List.mem_singleton_self _
    obtain ⟨i, hi⟩ := List.mem_iff_getElem?.mp (mem_callsOf.mp hmem).1
    by_cases hk : i ≤ k
    · exact .inl ⟨hlive, rfl, .inr ⟨by rw [phase]; rfl, i, _, hk, hi, rfl⟩⟩
    · exact .inr ⟨i, _, Nat.lt_of_not_le hk, hi, (hs.fits hlive.1).scripted.server_eq, rfl⟩

end State

/-- Nothing comes to be remembered until a later call returns well. -/
theorem Effect.cleared {s s' : State} (h : Effect s s') {server : String} {k : Nat}
    (hs : s.Cleared server k) (hsince : ¬ s'.AppliedSince server k) : s'.Cleared server k where
  coherent := h.coherent hs.coherent
  begun := by
    obtain ⟨c, hc, -⟩ := h.history hs.coherent (List.getElem?_eq_getElem hs.begun)
    exact (List.getElem?_eq_some_iff.mp hc).1
  forgotten := by
    have hbefore : ¬ s.AppliedSince server k := fun hs' => hsince (h.appliedSince hs.coherent hs')
    have hforgotten := hs.forgotten
    cases h with
    | called deadline found phase entry pending unchanged =>
      apply (Assoc.lookup_erase _ _ _).trans
      split
      · rfl
      · exact hforgotten
    | @settled w outcome e t now found phase entry recorded =>
      change (if outcome = .applied then Assoc.put s.fingerprints w.task.server w.script.fingerprint
        else s.fingerprints).lookup server = none
      split
      · next happlied =>
        rw [happlied] at phase
        rw [Assoc.lookup_put, if_neg, hforgotten]
        rintro rfl
        have hlive : s.Live w.task.id w :=
          State.live_of_entry found entry (State.settleTask_ok recorded).1
        rcases hs.coherent.restores_or_appliedSince hlive phase k with hrestores | hsince'
        · exact hs.unrestored _ _ hrestores
        · exact hbefore hsince'
      · exact hforgotten
    | _ => exact hforgotten
  unrestored id w := hs.not_restores h

namespace State
variable {s : State} {server : String} {k : Nat}

theorem Coherent.appliedSince_run (hs : s.Coherent) (hsince : s.AppliedSince server k)
    (events : List Event) : (s.run events).AppliedSince server k := by
  have hstep : ∀ {r r' : State}, Effect r r' → (r.Coherent ∧ r.AppliedSince server k) →
      r'.Coherent ∧ r'.AppliedSince server k :=
    fun h hr => ⟨h.coherent hr.1, h.appliedSince hr.1 hr.2⟩
  exact (run_preserves hstep ⟨hs, hsince⟩ events).2

theorem Cleared.run (hs : s.Cleared server k) (events : List Event)
    (hsince : ¬ (s.run events).AppliedSince server k) : (s.run events).Cleared server k := by
  have hstep : ∀ {r r' : State}, Effect r r' →
      (r.Coherent ∧ (r.AppliedSince server k ∨ r.Cleared server k)) →
      r'.Coherent ∧ (r'.AppliedSince server k ∨ r'.Cleared server k) := by
    rintro r r' h ⟨hr, hcase⟩
    refine ⟨h.coherent hr, ?_⟩
    by_cases hsince : r'.AppliedSince server k
    · exact .inl hsince
    · rcases hcase with hbefore | hcleared
      · exact .inl (h.appliedSince hr hbefore)
      · exact .inr (h.cleared hcleared hsince)
  exact (run_preserves hstep ⟨hs.coherent, .inr hs⟩ events).2.resolve_left hsince

/-- A task whose worker does not skip its call has made one when it becomes a success. -/
theorem Coherent.callsOf_of_success (hs : s.Coherent) {id : String} {e : Registry.Entry}
    (he : s.registry.find? id = some e) (hbefore : e.task.status ≠ .success)
    (hworker : ∀ w, s.worker? id = some w → w.unchanged = false) (events : List Event) {u : Task}
    (hget : (s.run events).registry.get id = .ok u) (hsuccess : u.status = .success) :
    (s.run events).callsOf id ≠ [] := by
  have hstep : ∀ {r r' : State}, Effect r r' →
      (r.Coherent ∧ (∀ w, r.worker? id = some w → w.unchanged = false) ∧
        ∃ e, r.registry.find? id = some e ∧ (e.task.status = .success → r.callsOf id ≠ [])) →
      r'.Coherent ∧ (∀ w, r'.worker? id = some w → w.unchanged = false) ∧
        ∃ e, r'.registry.find? id = some e ∧ (e.task.status = .success → r'.callsOf id ≠ []) := by
    rintro r r' h ⟨hr, hworker, e, he, hcalls⟩
    obtain ⟨e', he', -⟩ := h.task_follows hr he
    refine ⟨h.coherent hr, fun w' hw' => ?_, e', he', fun hsuccess => ?_⟩
    · obtain ⟨w, hw, hcontinues⟩ := h.worker_origin (by simp [he]) hw'
      rw [hcontinues.unchanged, hworker w hw]
    · by_cases hbefore : e.task.status = .success
      · exact h.callsOf_ne_nil hr (hcalls hbefore)
      · obtain ⟨w, hlive, phase, hsame⟩ := h.of_success he he' hbefore hsuccess
        rw [callsOf_congr hsame, hr.callsOf_applied hlive.1 phase (hworker w hlive.1)]
        exact List.cons_ne_nil _ _
  obtain ⟨-, -, e', he', hcalls⟩ := run_preserves hstep
    ⟨hs, hworker, e, he, fun hsuccess => absurd hsuccess hbefore⟩ events
  obtain ⟨e'', he'', rfl⟩ := Registry.get_eq_ok_iff.mp hget
  obtain rfl := Option.some.inj (he'.symm.trans he'')
  exact hcalls hsuccess

/-- What is masked has not been made good before. -/
theorem MasksFailure.not_appliedSince (h : s.MasksFailure server k) (hs : s.Coherent) :
    ¬ s.AppliedSince server k := by
  obtain ⟨before, after, id, force, now, t, u, -, -, -, -, hsince⟩ := h
  intro hs'
  have hbefore := (s.run before).step_effect (.trigger server force id now)
  exact hsince ((hbefore.coherent (hs.run before)).appliedSince_run
    (hbefore.appliedSince (hs.run before) (hs.appliedSince_run hs' before)) after)

/-- A failure is masked only under the condition. -/
theorem Coherent.mayMask_of_masksFailure (hs : s.Coherent) (hk : k < s.calls.length)
    (h : s.MasksFailure server k) : s.MayMask server k := by
  obtain ⟨before, after, id, force, now, t, u, htrigger, hget, hsuccess, hcalls, hsince⟩ := h
  have hbefore := hs.run before
  obtain ⟨hcreate, hentry⟩ := find?_of_trigger htrigger
  obtain ⟨_, _, _, hopen, -, -, -, -, hcreated, -⟩ := trigger_ok (Prod.ext htrigger rfl)
  refine ⟨?_, ?_, ?_⟩
  · cases hclosed : s.shuttingDown with
    | false => rfl
    | true =>
      have hstill : (s.run before).shuttingDown = true := by
        refine run_preserves (P := fun r => r.shuttingDown = true) (fun {r r'} h hr => ?_) hclosed
          before
        cases hr' : r'.shuttingDown with
        | true => rfl
        | false => rw [h.accepting hr'] at hr; cases hr
      rw [hstill] at hopen
      cases hopen
  · have hwritable := ((Registry.create_isOk_iff _ _).mp ⟨_, hcreated⟩).2
    have hsame : (s.run before).registry.isWritable = s.registry.isWritable :=
      run_preserves (P := fun r => r.registry.isWritable = s.registry.isWritable)
        (fun h hr => h.isWritable_eq.trans hr) rfl before
    rw [← hsame, hwritable]
  · by_contra hnone
    rw [not_or] at hnone
    have hcleared : s.Cleared server k :=
      ⟨hs, hk, Option.not_isSome_iff_eq_none.mp hnone.1, fun id w hrestores => hnone.2 ⟨id, w, hrestores⟩⟩
    have hstep := (s.run before).step_effect (.trigger server force id now)
    have hsince' : ¬ (s.run before).AppliedSince server k := fun h =>
      hsince ((hstep.coherent hbefore).appliedSince_run (hstep.appliedSince hbefore h) after)
    -- nothing is remembered when the task is triggered, so its worker does not skip its call
    obtain ⟨script, hscript, hworker⟩ := hbefore.worker?_of_trigger htrigger
    have hforgotten := (hcleared.run before hsince').forgotten
    obtain ⟨rules, hrules⟩ := scriptFor_ok hscript
    refine (hstep.coherent hbefore).callsOf_of_success hentry ?_ (fun w hw => ?_) after hget hsuccess
      hcalls
    · rw [hcreate]
      simp [Task.create]
    · obtain rfl := Option.some.inj (hworker.symm.trans hw)
      simp [isUnchanged, (Script.assemble_ok hrules).1, hforgotten]

end State
end FirewallRollout.Rebuild
