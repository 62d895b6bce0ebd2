import FirewallRollout.Proofs.Rebuild.Turns

/-!
# What an event does to a worker

The effects say what becomes of the whole state, whoever asked for it. To tell why a worker is where
it is, one has to know the event as well: each event does one of a few things to the worker of a task.
-/
namespace FirewallRollout.Rebuild
open State

/-- What an event does to the worker of a task that stays. -/
inductive Worker.Acts (s : State) (w : Worker) : Event → Worker → Prop
  | idle (e : Event) : Acts s w e w
  | cancelled {now : Int64} (ended : (s.step (.cancel w.task.id now)).hasEnded w.task.id = true) :
      Acts s w (.cancel w.task.id now) { w with cancelled := true }
  | shutDown : Acts s w .shutDown { w with cancelled := true }
  | revoked : Acts s w (.revoke w.task.id) { w with cancelled := true }
  | skips : Acts s w (.start w.task.id) { w with phase := .settling .applied }
  | calls (queued : w.phase = .queued) (begins : (s.step (.start w.task.id)).calls ≠ s.calls) :
      Acts s w (.start w.task.id) { w with phase := .executing (s.clock + s.budgetMs w.task) }
  | returns {deadline : Nat} (result : Executor.Result) (phase : w.phase = .executing deadline) :
      Acts s w (.finish w.task.id result) { w with phase := .settling (outcomeOf w result) }
  /-- The worker gives up its call, since the time is up or its token is cancelled. -/
  | winds {deadline : Nat} (e : Event) (limit : Nat) (phase : w.phase = .executing deadline)
      (due : e = .expire w.task.id ∧ deadline ≤ s.clock ∨ w.cancelled = true) :
      Acts s w e { w with
        cancelled := true
        phase := .winding (s.stopOutcome w.task.id) limit }
  | stops {outcome : Outcome} {limit : Nat} (e : Event) (phase : w.phase = .winding outcome limit) :
      Acts s w e { w with phase := .settling outcome }
  | leaves (e : Event) : Acts s w e { w with phase := .releasing }

namespace State

/-- A cancellation that is refused changes nothing, and one that is accepted fails the task. -/
theorem cancel_cases (s : State) (id : String) (now : Int64) :
    s.step (.cancel id now) = s ∨ ∃ e, s.registry.find? id = some e ∧
      (s.cancel id now).1 = .ok (e.task.abandon Task.cancelledMessage now) ∧
      s.step (.cancel id now) = withWorker
        { s with registry := s.registry.amend e (e.task.abandon Task.cancelledMessage now) } id
        fun w => { w with cancelled := true } := by
  cases h : (s.cancel id now).1 with
  | error error => exact .inl (cancel_error (Prod.ext h rfl))
  | ok t =>
    have hcancel : s.cancel id now = (.ok t, s.step (.cancel id now)) := Prod.ext h rfl
    obtain ⟨e, he, -, rfl, hs'⟩ := cancel_ok hcancel
    exact .inr ⟨e, he, rfl, hs'⟩

theorem serves_cancel (s : State) (id : String) (now : Int64) :
    Serves id s (s.step (.cancel id now)) := by
  refine serves_step (.cancel id now) rfl ?_
  rcases s.cancel_cases id now with hsame | ⟨e, -, -, hs'⟩
  · exact .inl hsame
  · exact .inr ⟨_, _, hs', rfl, rfl, fun _ => rfl⟩

theorem serves_revoke (s : State) (id : String) : Serves id s (s.revoke id) := by
  refine serves_step (.revoke id) rfl ?_
  unfold revoke
  split
  · exact .inl rfl
  · exact .inr ⟨s, _, rfl, rfl, rfl, fun _ => rfl⟩

theorem workers_pass (s : State) (ms : Nat) : (s.pass ms).workers = s.workers := by
  unfold pass
  split <;> rfl

section Stays
variable {s : State} {w w' : Worker} (hw : s.worker? w.task.id = some w)
include hw

theorem eq_of_withWorker {s₁ : State} {change : Worker → Worker}
    (hw' : (s₁.withWorker w.task.id change).worker? w.task.id = some w')
    (hworkers : s₁.workers = s.workers) (hkeep : ∀ v, (change v).task = v.task) : w' = change w := by
  have hw₁ : s₁.worker? w.task.id = some w := by rw [← hw, worker?, worker?, hworkers]
  exact Option.some.inj (hw'.symm.trans (worker?_withWorker_self hw₁ hkeep))

/-- An event that leaves all workers as they are. -/
theorem acts_idle {s₁ : State} (e : Event) (hw' : s₁.worker? w.task.id = some w')
    (hworkers : s₁.workers = s.workers) : w.Acts s e w' := by
  rw [worker?, hworkers] at hw'
  obtain rfl := Option.some.inj (hw'.symm.trans hw)
  exact .idle e

theorem acts_trigger {server id : String} {force : Bool} {now : Int64} (e : Event)
    (hw' : (s.trigger server force id now).2.worker? w.task.id = some w') : w.Acts s e w' := by
  cases h : s.trigger server force id now with
  | mk result s' =>
    rw [h] at hw'
    cases result with
    | error error =>
      rcases trigger_error h with rfl | rfl
      · exact acts_idle hw e hw' rfl
      · exact acts_idle hw e hw' rfl
    | ok t =>
      obtain ⟨script, total, registry, -, -, -, -, -, -, rfl⟩ := trigger_ok h
      rw [worker?_append (s := s) rfl, hw, Option.some_or] at hw'
      obtain rfl := Option.some.inj hw'
      exact .idle e

theorem acts_cancel {now : Int64}
    (hw' : (s.step (.cancel w.task.id now)).worker? w.task.id = some w') :
    w.Acts s (.cancel w.task.id now) w' := by
  rcases s.cancel_cases w.task.id now with hsame | ⟨e, he, -, hs'⟩
  · rw [hsame] at hw'
    exact acts_idle hw _ hw' rfl
  · rw [hs'] at hw'
    obtain rfl := eq_of_withWorker hw hw' rfl fun _ => rfl
    refine .cancelled ?_
    rw [hs', hasEnded_amend (t := e.task.abandon Task.cancelledMessage now) he rfl rfl, if_pos rfl]
    rfl

theorem acts_start (hw' : (s.start w.task.id).worker? w.task.id = some w') :
    w.Acts s (.start w.task.id) w' := by
  rcases s.start_cases w.task.id with ⟨hsame, -⟩ | ⟨v, s₁, phase, hv, hqueued, hs₁, hworkers, -, hcalls⟩
  · rw [hsame] at hw'
    exact acts_idle hw _ hw' rfl
  obtain rfl := Option.some.inj (hw.symm.trans hv)
  rw [hs₁] at hw'
  obtain rfl := eq_of_withWorker hw hw' hworkers fun _ => rfl
  rcases hcalls with ⟨-, rfl | rfl⟩ | ⟨hcalls, rfl⟩
  · exact .leaves _
  · exact .skips
  · refine .calls hqueued ?_
    rw [State.step, hs₁]
    simp [setPhase, hcalls]

theorem acts_revoke (hw' : (s.revoke w.task.id).worker? w.task.id = some w') :
    w.Acts s (.revoke w.task.id) w' := by
  unfold revoke at hw'
  split at hw'
  · exact acts_idle hw _ hw' rfl
  · obtain rfl := eq_of_withWorker hw hw' rfl fun _ => rfl
    exact .revoked

theorem acts_finish {result : Executor.Result}
    (hw' : (s.finish w.task.id result).worker? w.task.id = some w') :
    w.Acts s (.finish w.task.id result) w' := by
  unfold finish at hw'
  rw [hw] at hw'
  dsimp only at hw'
  split at hw'
  · next hphase =>
    obtain rfl := eq_of_withWorker hw hw' rfl fun _ => rfl
    exact .returns result hphase
  · next hphase =>
    obtain rfl := eq_of_withWorker hw hw' rfl fun _ => rfl
    exact .stops _ hphase
  · exact acts_idle hw _ hw' rfl

theorem acts_wind {e : Event} {deadline : Nat} (hphase : w.phase = .executing deadline)
    (hdue : e = .expire w.task.id ∧ deadline ≤ s.clock ∨ w.cancelled = true)
    (hw' : (s.wind w.task.id).worker? w.task.id = some w') : w.Acts s e w' := by
  obtain rfl := eq_of_withWorker hw hw' rfl fun _ => rfl
  exact .winds e _ hphase hdue

theorem acts_expire (hw' : (s.expire w.task.id).worker? w.task.id = some w') :
    w.Acts s (.expire w.task.id) w' := by
  unfold expire at hw'
  split at hw'
  · next hfound =>
    split at hw'
    · next hdue =>
      obtain rfl := Option.some.inj (hw.symm.trans hfound)
      exact acts_wind hw rfl (.inl ⟨rfl, hdue⟩) hw'
    · exact acts_idle hw _ hw' rfl
  · exact acts_idle hw _ hw' rfl

theorem acts_notice (hw' : (s.notice w.task.id).worker? w.task.id = some w') :
    w.Acts s (.notice w.task.id) w' := by
  unfold notice at hw'
  split at hw'
  · next hfound =>
    obtain rfl := Option.some.inj (hw.symm.trans hfound)
    exact acts_wind hw rfl (.inr rfl) hw'
  · exact acts_idle hw _ hw' rfl

theorem acts_abandon (hw' : (s.abandon w.task.id).worker? w.task.id = some w') :
    w.Acts s (.abandon w.task.id) w' := by
  unfold abandon at hw'
  split at hw'
  · next hfound =>
    split at hw'
    · obtain rfl := Option.some.inj (hw.symm.trans hfound)
      obtain rfl := eq_of_withWorker hw hw' rfl fun _ => rfl
      exact .stops _ rfl
    · exact acts_idle hw _ hw' rfl
  · exact acts_idle hw _ hw' rfl

theorem acts_settle {now : Int64} (hw' : (s.settle w.task.id now).worker? w.task.id = some w') :
    w.Acts s (.settle w.task.id now) w' := by
  rw [settle_eq] at hw'
  split at hw'
  · split at hw'
    · obtain rfl := eq_of_withWorker hw hw' rfl fun _ => rfl
      exact .leaves _
    · next hsome =>
      obtain rfl := eq_of_withWorker hw hw' (workers_of_withTask? hsome).1 fun _ => rfl
      exact .leaves _
  · exact acts_idle hw _ hw' rfl

theorem acts_release (hw' : (s.release w.task.id).worker? w.task.id = some w') :
    w.Acts s (.release w.task.id) w' := by
  unfold release at hw'
  split at hw'
  · exact acts_idle hw _ hw' rfl
  · rw [worker?_filter (s := s) rfl, if_pos rfl] at hw'
    cases hw'

/-- Every event does one of these things to a worker that stays. -/
theorem acts_of_step {e : Event} (hw' : (s.step e).worker? w.task.id = some w') : w.Acts s e w' := by
  -- an event for one task leaves the workers of all others
  have hown : ∀ {id : String}, Serves id s (s.step e) → (id = w.task.id → w.Acts s e w') →
      w.Acts s e w' := by
    intro id hserves hacts
    by_cases hid : w.task.id = id
    · exact hacts hid.symm
    · rw [hserves.others hid] at hw'
      exact acts_idle hw e hw' rfl
  cases e with
  | trigger server force id now => exact acts_trigger hw _ hw'
  | cancel id now => exact hown (serves_cancel s id now) (by rintro rfl; exact acts_cancel hw hw')
  | shutDown =>
    rw [State.step, worker?_shutDown, hw] at hw'
    obtain rfl := Option.some.inj hw'
    exact .shutDown
  | edit inventory => exact acts_idle hw _ hw' rfl
  | start id => exact hown (serves_start s id) (by rintro rfl; exact acts_start hw hw')
  | report id n => exact acts_idle hw _ hw' (s.workers_report id n).1
  | revoke id => exact hown (serves_revoke s id) (by rintro rfl; exact acts_revoke hw hw')
  | finish id result =>
    exact hown (serves_finish s id result) (by rintro rfl; exact acts_finish hw hw')
  | expire id => exact hown (serves_expire s id) (by rintro rfl; exact acts_expire hw hw')
  | notice id => exact hown (serves_notice s id) (by rintro rfl; exact acts_notice hw hw')
  | abandon id => exact hown (serves_abandon s id) (by rintro rfl; exact acts_abandon hw hw')
  | settle id now => exact hown (serves_settle s id now) (by rintro rfl; exact acts_settle hw hw')
  | release id => exact hown (serves_release s id) (by rintro rfl; exact acts_release hw hw')
  | pass ms => exact acts_idle hw _ hw' (s.workers_pass ms)

end Stays

/-- Only the start of a worker and the return of its call are seen in the history of calls. -/
theorem calls_step (s : State) (e : Event) :
    (s.step e).calls = s.calls ∨
      (∃ w : Worker, e = .start w.task.id ∧ (s.step e).calls = s.calls ++ [{ plan := w.plan }]) ∨
      ∃ id result, e = .finish id result ∧ (s.step e).calls = (s.withResult id result).calls := by
  have hamend : ∀ {s' : State} {id : String} {change : Task → Except Task.Refusal Unit × Task},
      s.withTask? id change = some s' → s'.calls = s.calls := by
    intro s' id change h
    obtain ⟨e, t, -, -, rfl⟩ := withTask?_eq_some_iff.mp h
    rfl
  cases e with
  | trigger server force id now =>
    refine .inl ?_
    rw [step]
    cases h : s.trigger server force id now with
    | mk result s' =>
      cases result with
      | error error => rcases trigger_error h with rfl | rfl <;> rfl
      | ok t =>
        obtain ⟨script, total, registry, -, -, -, -, -, -, rfl⟩ := trigger_ok h
        rfl
  | cancel id now =>
    refine .inl ?_
    rcases s.cancel_cases id now with hsame | ⟨e, -, -, hs'⟩
    · rw [hsame]
    · rw [hs']
      rfl
  | shutDown => exact .inl rfl
  | edit inventory => exact .inl rfl
  | start id =>
    rcases s.start_cases id with ⟨hsame, -⟩ | ⟨w, s₁, phase, hw, -, hs₁, -, -, ⟨hcalls, -⟩ | ⟨hcalls, -⟩⟩
    · exact .inl (congrArg State.calls hsame)
    · exact .inl ((congrArg State.calls hs₁).trans hcalls)
    · obtain rfl := id_of_worker? hw
      exact .inr (.inl ⟨w, rfl, (congrArg State.calls hs₁).trans hcalls⟩)
  | report id n =>
    refine .inl ?_
    rw [step, report]
    split
    · rfl
    cases hsome : s.withTask? id fun t => (.ok (), t.progress n) with
    | none => rfl
    | some s' => exact hamend hsome
  | revoke id =>
    refine .inl ?_
    rw [step, revoke]
    split <;> rfl
  | finish id result =>
    rw [step, finish]
    split
    · exact .inl rfl
    split
    · exact .inr (.inr ⟨id, result, rfl, rfl⟩)
    · exact .inr (.inr ⟨id, result, rfl, rfl⟩)
    · exact .inl rfl
  | expire id =>
    refine .inl ?_
    rw [step, expire]
    split
    · split <;> rfl
    · rfl
  | notice id =>
    refine .inl ?_
    rw [step, notice]
    split <;> rfl
  | abandon id =>
    refine .inl ?_
    rw [step, abandon]
    split
    · split <;> rfl
    · rfl
  | settle id now =>
    refine .inl ?_
    rw [step, settle_eq]
    split
    · split
      · rfl
      · next s' hsome => exact (hamend hsome : s'.calls = s.calls)
    · rfl
  | release id =>
    refine .inl ?_
    rw [step, release]
    split <;> rfl
  | pass ms =>
    refine .inl ?_
    rw [step, pass]
    split <;> rfl

section Others
variable {s : State} {id : String} {e : Event} (hstart : e ≠ .start id)
include hstart

/-- The calls of a task are a matter of its own worker. -/
theorem callsOf_step (hfinish : ∀ result, e ≠ .finish id result) :
    (s.step e).callsOf id = s.callsOf id := by
  rcases s.calls_step e with hcalls | ⟨w, rfl, hcalls⟩ | ⟨id', result, rfl, hcalls⟩
  · exact callsOf_congr hcalls id
  · rw [callsOf_append hcalls, if_neg]
    rintro rfl
    exact hstart rfl
  · rw [callsOf_congr hcalls, callsOf_withResult, if_neg]
    rintro rfl
    exact hfinish result rfl

/-- A worker that is in a call was in it before, unless this is the event that starts it. -/
theorem calling_origin {w' : Worker} (hw' : (s.step e).worker? id = some w')
    (hcalling : isCalling w'.phase = true) :
    ∃ w, s.worker? id = some w ∧ isCalling w.phase = true ∧ w'.plan = w.plan := by
  rcases (s.step_effect e).worker_moves hw' with ⟨w, hw, -⟩ | ⟨-, hqueued, -⟩
  · obtain rfl := id_of_worker? hw
    refine ⟨w, hw, ?_⟩
    cases acts_of_step hw hw' with
    | idle | cancelled | shutDown | revoked => exact ⟨hcalling, rfl⟩
    | winds e limit phase due => exact ⟨isCalling_iff.mpr (.inl ⟨_, phase⟩), rfl⟩
    | calls queued begins => exact absurd rfl hstart
    | skips | returns | stops | leaves => cases hcalling
  · rw [hqueued] at hcalling
    cases hcalling

end Others

section Finish
variable {s : State} {id : String} {w : Worker} (result : Executor.Result)

/-- A call that returns leaves its result, and its worker with an outcome. -/
theorem finish_of_calling (hw : s.worker? id = some w) (hcalling : isCalling w.phase = true) :
    ∃ outcome, s.finish id result = (s.withResult id result).setPhase id (.settling outcome) := by
  unfold finish
  rw [hw]
  rcases isCalling_iff.mp hcalling with ⟨deadline, hp⟩ | ⟨outcome, limit, hp⟩ <;>
    exact ⟨_, by simp only [hp]; rfl⟩

theorem finish_of_not_calling (hw : s.worker? id = some w) (hcalling : isCalling w.phase = false) :
    s.finish id result = s := by
  unfold finish
  rw [hw]
  cases hp : w.phase with
  | executing | winding => simp [hp, isCalling] at hcalling
  | queued | settling | releasing => simp only [hp]

end Finish

/-- What every event keeps true of a worker and the run so far is true of it in every run. A run grows
at its end here, where the event is that is acted on. -/
theorem Coherent.worker_induction {first : State} (hs : first.Coherent)
    {P : Worker → List Event → Prop} {w₀ : Worker} (hw₀ : first.worker? w₀.task.id = some w₀)
    (hfirst : P w₀ [])
    (hstep : ∀ {events : List Event} {e : Event} {w w' : Worker}, w.task.id = w₀.task.id →
      (first.run events).worker? w.task.id = some w → w.Acts (first.run events) e w' →
      P w events → P w' (events ++ [e]))
    {events : List Event} {w : Worker} (hw : (first.run events).worker? w₀.task.id = some w) :
    P w events := by
  induction events using List.reverseRecOn generalizing w with
  | nil =>
    obtain rfl := Option.some.inj (hw₀.symm.trans hw)
    exact hfirst
  | append_singleton events e ih =>
    have hw' : ((first.run events).step e).worker? w₀.task.id = some w := by
      rw [run_append] at hw
      exact hw
    have hkept := hs.registered_run (hs.registered_of_worker? hw₀) events
    obtain ⟨v, hv, -⟩ := ((first.run events).step_effect e).worker_origin hkept hw'
    have hbefore := ih hv
    have hid : v.task.id = w₀.task.id := id_of_worker? hv
    rw [← hid] at hv hw'
    exact hstep hid hv (acts_of_step hv hw') hbefore

end State
end FirewallRollout.Rebuild
