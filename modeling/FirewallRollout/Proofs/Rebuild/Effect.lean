import FirewallRollout.Proofs.Rebuild.Request

/-!
# What a step does

Every step is one of a fixed list of effects, each with what has to hold for it. The invariants of
the orchestrator are proved by going through this list and not through the steps themselves, so that
a change to one step changes one entry here.
-/
namespace FirewallRollout.Rebuild

open State in
/-- The states that one step may lead to. -/
inductive Effect (s : State) : State → Prop
  | nothing : Effect s s
  /-- A refused rebuild uses up a place in the order of creation at most. -/
  | refused : Effect s { s with registry := { s.registry with nextSeq := s.registry.nextSeq + 1 } }
  | triggered {server id : String} {force : Bool} {now : Int64} {script : Script} {total : UInt32}
      {registry : Registry}
      (accepting : s.shuttingDown = false) (free : s.holder? server = none)
      (scripted : s.scriptFor server true .plain = .ok script)
      (counted : Text.word32? script.lines.length = some total)
      (created : s.registry.create (.create id server total force now) =
        (.ok (.create id server total force now), registry)) :
      Effect s { s with
        registry
        leases := if s.settings.allowConcurrent then s.leases else Assoc.put s.leases server id
        workers := s.workers ++ [{ task := .create id server total force now, script,
                                   unchanged := !force && s.isUnchanged script }] }
  | cancelled {e : Registry.Entry} {now : Int64}
      (found : s.registry.find? e.task.id = some e) (active : e.task.isTerminal = false) :
      Effect s (withWorker
        { s with registry := s.registry.amend e (e.task.abandon Task.cancelledMessage now) }
        e.task.id fun w => { w with cancelled := true })
  | shutDown : Effect s s.shutDown
  | edited (inventory : Inventory) : Effect s { s with inventory }
  /-- A worker whose task is not pending any more does not start it. -/
  | startRefused {w : Worker} (found : s.worker? w.task.id = some w) (phase : w.phase = .queued)
      (late : ∀ e, s.registry.find? w.task.id = some e → e.task.status ≠ .pending) :
      Effect s (s.withWorker w.task.id fun w => { w with phase := .releasing })
  /-- A worker starts with nothing to apply. -/
  | skipped {w : Worker} {e : Registry.Entry} (found : s.worker? w.task.id = some w)
      (phase : w.phase = .queued) (entry : s.registry.find? w.task.id = some e)
      (pending : e.task.status = .pending) (unchanged : w.unchanged = true) :
      Effect s (withWorker
        { s with registry := s.registry.amend e { e.task with status := .running } }
        w.task.id fun w => { w with phase := .settling .applied })
  /-- A worker starts and begins its call. -/
  | called {w : Worker} {e : Registry.Entry} (deadline : Nat)
      (found : s.worker? w.task.id = some w)
      (phase : w.phase = .queued) (entry : s.registry.find? w.task.id = some e)
      (pending : e.task.status = .pending) (unchanged : w.unchanged = false)
      (timed : deadline = s.clock + s.budgetMs w.task) :
      Effect s (withWorker
        { s with
          registry := s.registry.amend e { e.task with status := .running }
          fingerprints := Assoc.erase s.fingerprints w.task.server
          calls := s.calls ++ [Call.mk w.plan none] }
        w.task.id fun w => { w with phase := .executing deadline })
  | reported {w : Worker} {e : Registry.Entry} (n : UInt32)
      (found : s.worker? w.task.id = some w) (phase : isCalling w.phase = true)
      (entry : s.registry.find? w.task.id = some e) :
      Effect s { s with registry := s.registry.amend e (e.task.progress n) }
  | revoked {w : Worker} (found : s.worker? w.task.id = some w) (phase : isCalling w.phase = true) :
      Effect s (s.withWorker w.task.id fun w => { w with cancelled := true })
  | finished {w : Worker} {deadline : Nat} (result : Executor.Result)
      (found : s.worker? w.task.id = some w) (phase : w.phase = .executing deadline) :
      Effect s (withWorker (s.withResult w.task.id result) w.task.id
        fun v => { v with phase := .settling (outcomeOf w result) })
  /-- A call returns after its worker gave up on it. -/
  | finishedLate {w : Worker} {outcome : Outcome} {limit : Nat} (result : Executor.Result)
      (found : s.worker? w.task.id = some w) (phase : w.phase = .winding outcome limit) :
      Effect s (withWorker (s.withResult w.task.id result) w.task.id
        fun v => { v with phase := .settling outcome })
  /-- A worker stops waiting, its time being up or its token cancelled. -/
  | wound {w : Worker} {deadline : Nat} (found : s.worker? w.task.id = some w)
      (phase : w.phase = .executing deadline) (due : deadline ≤ s.clock ∨ w.cancelled = true) :
      Effect s (s.wind w.task.id)
  | abandoned {w : Worker} {outcome : Outcome} {limit : Nat}
      (found : s.worker? w.task.id = some w) (phase : w.phase = .winding outcome limit)
      (due : limit ≤ s.clock) :
      Effect s (s.withWorker w.task.id fun w => { w with phase := .settling outcome })
  /-- The outcome of a task that has ended is dropped. -/
  | settleRefused {w : Worker} {outcome : Outcome} (found : s.worker? w.task.id = some w)
      (phase : w.phase = .settling outcome)
      (late : ∀ e, s.registry.find? w.task.id = some e → e.task.isTerminal = true) :
      Effect s (s.withWorker w.task.id fun w => { w with phase := .releasing })
  | settled {w : Worker} {outcome : Outcome} {e : Registry.Entry} {t : Task} (now : Int64)
      (found : s.worker? w.task.id = some w) (phase : w.phase = .settling outcome)
      (entry : s.registry.find? w.task.id = some e)
      (recorded : s.settleTask e.task outcome now = (.ok (), t)) :
      Effect s (withWorker
        { s with
          registry := s.registry.amend e t
          fingerprints := if outcome = .applied
            then Assoc.put s.fingerprints w.task.server w.script.fingerprint else s.fingerprints }
        w.task.id fun w => { w with phase := .releasing })
  | released {w : Worker} (found : s.worker? w.task.id = some w) (phase : w.phase = .releasing) :
      Effect s { s with
        workers := s.workers.filter (·.task.id != w.task.id)
        leases := if s.leases.lookup w.task.server == some w.task.id
          then Assoc.erase s.leases w.task.server else s.leases }
  | passed (ms : Nat) (allowed : s.mayPass ms = true) :
      Effect s { s with clock := s.clock + ms }

theorem Effect.settings_eq {s s' : State} (h : Effect s s') : s'.settings = s.settings := by
  cases h <;> rfl

namespace State

theorem settleTask_error {s : State} {t : Task} {outcome : Outcome} {now : Int64}
    {refusal : Task.Refusal} (h : (s.settleTask t outcome now).1 = .error refusal) :
    t.isTerminal = true := by
  cases outcome with
  | applied => exact (Task.succeed_error h).1
  | failed f => exact Task.progress_isTerminal t f.processed ▸ (Task.fail_error h).1
  | timedOut => exact (Task.abort_error h).1
  | interrupted => exact (Task.abort_error h).1

/-- An outcome is recorded for a task that has not ended; a started task then moves on, and becomes a
success only by rules that were applied. -/
theorem settleTask_ok {s : State} {t u : Task} {outcome : Outcome} {now : Int64}
    (h : s.settleTask t outcome now = (.ok (), u)) :
    t.isTerminal = false ∧ (t.status ≠ .pending → t.Follows u) ∧ u.isTerminal = true ∧
      u.id = t.id ∧ (u.status = .success ↔ outcome = .applied) := by
  cases outcome with
  | applied =>
    have hfollows := Task.follows_succeed h
    obtain ⟨ht, rfl⟩ := Task.succeed_ok h
    exact ⟨ht, hfollows, rfl, rfl, by simp⟩
  | failed f =>
    obtain ⟨ht, rfl⟩ := Task.fail_ok h
    rw [Task.progress_isTerminal] at ht
    exact ⟨ht, fun _ => Task.follows_endFailed _ _ _ ht (.inr ⟨_, rfl⟩), rfl,
      (Task.progress_sameRebuild t f.processed).1, by simp [Task.endFailed]⟩
  | timedOut =>
    obtain ⟨ht, rfl⟩ := Task.abort_ok h
    exact ⟨ht, fun _ => Task.follows_endFailed _ _ _ ht (.inl rfl), rfl, rfl,
      by simp [Task.abandon, Task.endFailed]⟩
  | interrupted =>
    obtain ⟨ht, rfl⟩ := Task.abort_ok h
    exact ⟨ht, fun _ => Task.follows_endFailed _ _ _ ht (.inl rfl), rfl, rfl,
      by simp [Task.abandon, Task.endFailed]⟩

theorem trigger_effect (s : State) (server : String) (force : Bool) (id : String) (now : Int64) :
    Effect s (s.trigger server force id now).2 := by
  cases h : s.trigger server force id now with
  | mk result s' =>
    cases result with
    | error e =>
      rcases trigger_error h with rfl | rfl
      · exact .nothing
      · exact .refused
    | ok t =>
      obtain ⟨script, total, registry, hopen, hfree, hscript, htotal, rfl, hcreate, rfl⟩ :=
        trigger_ok h
      exact .triggered hopen hfree hscript htotal hcreate

theorem cancel_effect (s : State) (id : String) (now : Int64) : Effect s (s.cancel id now).2 := by
  cases h : s.cancel id now with
  | mk result s' =>
    cases result with
    | error error =>
      obtain rfl := cancel_error h
      exact .nothing
    | ok t =>
      obtain ⟨e, he, hactive, rfl, rfl⟩ := cancel_ok h
      obtain rfl := Registry.id_of_find? he
      exact .cancelled he hactive

theorem start_effect (s : State) (id : String) : Effect s (s.start id) := by
  rw [start_eq]
  split
  · exact .nothing
  next w hw =>
  obtain ⟨hfound, hphase⟩ := workerIn?_eq_some_iff.mp hw
  obtain rfl := id_of_worker? hfound
  have hqueued : w.phase = .queued := by simpa using hphase
  split
  · next hnone =>
    apply Effect.startRefused hfound hqueued
    intro e he
    obtain ⟨refusal, hrefusal⟩ := withTask?_eq_none hnone he
    exact (Task.start_error hrefusal).1
  next s' hsome =>
  obtain ⟨e, t, he, hstart, rfl⟩ := withTask?_eq_some_iff.mp hsome
  obtain ⟨hpending, rfl⟩ := Task.start_ok hstart
  split
  · next hun => exact .skipped hfound hqueued he hpending hun
  · next hun => exact .called _ hfound hqueued he hpending (by simpa using hun) rfl

theorem report_effect (s : State) (id : String) (n : UInt32) : Effect s (s.report id n) := by
  unfold report
  split
  · exact .nothing
  next w hw =>
  obtain ⟨hfound, hphase⟩ := workerIn?_eq_some_iff.mp hw
  obtain rfl := id_of_worker? hfound
  cases hs : s.withTask? w.task.id fun t => (.ok (), t.progress n) with
  | none => exact .nothing
  | some s' =>
    obtain ⟨e, t, he, ht, rfl⟩ := withTask?_eq_some_iff.mp hs
    obtain rfl := (Prod.mk.inj ht).2
    exact .reported n hfound hphase he

theorem revoke_effect (s : State) (id : String) : Effect s (s.revoke id) := by
  unfold revoke
  split
  · exact .nothing
  next w hw =>
  obtain ⟨hfound, hphase⟩ := workerIn?_eq_some_iff.mp hw
  obtain rfl := id_of_worker? hfound
  exact .revoked hfound hphase

theorem finish_effect (s : State) (id : String) (result : Executor.Result) :
    Effect s (s.finish id result) := by
  unfold finish
  split
  · exact .nothing
  next w hfound =>
  obtain rfl := id_of_worker? hfound
  split
  · next hphase => exact .finished result hfound hphase
  · next hphase => exact .finishedLate result hfound hphase
  · exact .nothing

theorem expire_effect (s : State) (id : String) : Effect s (s.expire id) := by
  unfold expire
  split
  · next task script unchanged cancelled deadline hfound =>
    obtain rfl := id_of_worker? hfound
    split
    · next hdue => exact .wound hfound rfl (.inl hdue)
    · exact .nothing
  · exact .nothing

theorem notice_effect (s : State) (id : String) : Effect s (s.notice id) := by
  unfold notice
  split
  · next task script unchanged deadline hfound =>
    obtain rfl := id_of_worker? hfound
    exact .wound hfound rfl (.inr rfl)
  · exact .nothing

theorem abandon_effect (s : State) (id : String) : Effect s (s.abandon id) := by
  unfold abandon
  split
  · next task script unchanged cancelled outcome limit hfound =>
    obtain rfl := id_of_worker? hfound
    split
    · next hdue => exact .abandoned hfound rfl hdue
    · exact .nothing
  · exact .nothing

theorem settle_effect (s : State) (id : String) (now : Int64) : Effect s (s.settle id now) := by
  rw [settle_eq]
  split
  · next task script unchanged cancelled outcome hfound =>
    obtain rfl := id_of_worker? hfound
    split
    · next hnone =>
      apply Effect.settleRefused hfound rfl
      intro e he
      obtain ⟨refusal, hrefusal⟩ := withTask?_eq_none hnone he
      exact settleTask_error hrefusal
    · next s' hsome =>
      obtain ⟨e, t, he, ht, rfl⟩ := withTask?_eq_some_iff.mp hsome
      exact .settled now hfound rfl he ht
  · exact .nothing

theorem release_effect (s : State) (id : String) : Effect s (s.release id) := by
  unfold release
  split
  · exact .nothing
  next w hw =>
  obtain ⟨hfound, hphase⟩ := workerIn?_eq_some_iff.mp hw
  obtain rfl := id_of_worker? hfound
  exact .released hfound (by simpa using hphase)

theorem registry_release (s : State) (id : String) : (s.release id).registry = s.registry := by
  unfold release
  split <;> rfl

theorem pass_effect (s : State) (ms : Nat) : Effect s (s.pass ms) := by
  unfold pass
  split
  · next hallowed => exact .passed ms hallowed
  · exact .nothing

/-- Every step has one of the effects. -/
theorem step_effect (s : State) (e : Event) : Effect s (s.step e) := by
  cases e with
  | trigger server force id now => exact s.trigger_effect server force id now
  | cancel id now => exact s.cancel_effect id now
  | shutDown => exact .shutDown
  | edit inventory => exact .edited inventory
  | start id => exact s.start_effect id
  | report id n => exact s.report_effect id n
  | revoke id => exact s.revoke_effect id
  | finish id result => exact s.finish_effect id result
  | expire id => exact s.expire_effect id
  | notice id => exact s.notice_effect id
  | abandon id => exact s.abandon_effect id
  | settle id now => exact s.settle_effect id now
  | release id => exact s.release_effect id
  | pass ms => exact s.pass_effect ms

/-- What every effect preserves, every run preserves. -/
theorem run_preserves {P : State → Prop} (hstep : ∀ {s s'}, Effect s s' → P s → P s') {s : State}
    (h : P s) (events : List Event) : P (s.run events) := by
  induction events generalizing s with
  | nil => exact h
  | cons e events ih => exact ih (hstep (s.step_effect e) h)

end State
end FirewallRollout.Rebuild
