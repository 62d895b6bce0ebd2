import FirewallRollout.Proofs.Rebuild.Decision

/-!
# The cause of a failure

A task that failed did so at one event of its run: a caller cancelled it, or its worker recorded what
had decided its call. Which of the two it was, and what had decided the call, is told by the run, and
the message of the task says so.
-/
namespace FirewallRollout.Rebuild

namespace Cause

theorem eq_of_outcome {cause other : Cause} (h : other.outcome = cause.outcome)
    (hcause : cause ≠ .cancelled) (hother : other ≠ .cancelled) : other = cause := by
  cases cause <;> cases other <;> simp_all [outcome]

end Cause

namespace State

/-- A run ends a task with an event. -/
structure EndsWith (first : State) (id : String) (u : Task) (events before : List Event)
    (last : Event) : Prop where
  split : ∃ later, events = before ++ last :: later
  active : (first.run before).hasEnded id = false
  ended : u.isTerminal = true
  result : ((first.run before).step last).registry.get id = .ok u

/-- How a task failed in a run that goes on from its trigger: by a cancellation that was accepted, or
by its worker, which recorded what had decided its call. -/
inductive FailedBy (first : State) (t u : Task) (events : List Event) : Cause → Prop
  | cancelled {before : List Event} {now : Int64}
      (last : first.EndsWith t.id u events before (.cancel t.id now))
      (accepted : ((first.run before).cancel t.id now).1 = .ok u) :
      FailedBy first t u events .cancelled
  | settled {before : List Event} {now : Int64} {w : Worker} {cause : Cause}
      (last : first.EndsWith t.id u events before (.settle t.id now))
      (worker : (first.run before).worker? t.id = some w)
      (phase : w.phase = .settling cause.outcome) (decided : first.Decided t before cause)
      (other : cause ≠ .cancelled) : FailedBy first t u events cause

section Ending
variable {first : State} {id : String} {u : Task} {events : List Event}

/-- A task that ends in a run does so with an event of it. -/
theorem Coherent.exists_endsWith (hs : first.Coherent) {e : Registry.Entry}
    (he : first.registry.find? id = some e) (hactive : e.task.isTerminal = false)
    (hu : (first.run events).registry.get id = .ok u) (hended : u.isTerminal = true) :
    ∃ before last, first.EndsWith id u events before last := by
  induction events generalizing first e with
  | nil =>
    obtain ⟨e', he', rfl⟩ := Registry.get_eq_ok_iff.mp hu
    obtain rfl := Option.some.inj (he.symm.trans he')
    rw [hactive] at hended
    cases hended
  | cons event events ih =>
    have hstep := (first.step_effect event).coherent hs
    obtain ⟨e', he', -⟩ := (first.step_effect event).task_follows hs he
    cases hactive' : e'.task.isTerminal with
    | true =>
      have hkept := (hstep.get_run_of_isTerminal he' hactive' events).symm.trans hu
      obtain rfl := Except.ok.inj hkept
      exact ⟨[], event, ⟨events, rfl⟩, hasEnded_eq_false_iff.mpr ⟨e, he, hactive⟩, hended,
        Registry.get_eq_ok_iff.mpr ⟨e', he', rfl⟩⟩
    | false =>
      obtain ⟨before, last, ⟨later, hsplit⟩, hopen, -, hresult⟩ := ih hstep he' hactive' hu
      exact ⟨event :: before, last, ⟨later, by rw [hsplit]; rfl⟩, hopen, hended, hresult⟩

theorem EndsWith.hasEnded_later (hs : first.Coherent) {before : List Event} {last : Event}
    (h : first.EndsWith id u events before last) (more : List Event) :
    (first.run (before ++ last :: more)).hasEnded id = true := by
  obtain ⟨e, he, rfl⟩ := Registry.get_eq_ok_iff.mp h.result
  have hcoherent : ((first.run before).step last).Coherent :=
    ((first.run before).step_effect last).coherent (hs.run before)
  rw [hasEnded_of_get (u := e.task), h.ended]
  rw [run_append]
  exact hcoherent.get_run_of_isTerminal he h.ended more

/-- Only one event of a run ends a task. -/
theorem EndsWith.unique (hs : first.Coherent) {before before' : List Event} {last last' : Event}
    (h : first.EndsWith id u events before last) (h' : first.EndsWith id u events before' last') :
    before' = before ∧ last' = last := by
  have hnot : ∀ {b b' : List Event} {l l' : Event} {more : List Event},
      first.EndsWith id u events b l → first.EndsWith id u events b' l' → b' ≠ b ++ l :: more := by
    rintro b b' l l' more hb hb' rfl
    have hended := hb.hasEnded_later hs more
    rw [hb'.active] at hended
    cases hended
  obtain ⟨later, hsplit⟩ := h.split
  obtain ⟨later', hsplit'⟩ := h'.split
  rcases List.append_eq_append_iff.mp (hsplit.symm.trans hsplit') with
    ⟨between, hbefore, htail⟩ | ⟨between, hbefore, htail⟩
  · cases between with
    | nil => simp_all
    | cons event between =>
      obtain ⟨rfl, -⟩ := List.cons.inj htail
      exact absurd hbefore (hnot h h')
  · cases between with
    | nil => simp_all
    | cons event between =>
      obtain ⟨rfl, -⟩ := List.cons.inj htail
      exact absurd hbefore (hnot h' h)

end Ending

section Quiet
variable (s : State) (id : String)

theorem registry_revoke : (s.revoke id).registry = s.registry := by
  unfold revoke
  split <;> rfl

theorem registry_finish (result : Executor.Result) : (s.finish id result).registry = s.registry := by
  unfold finish
  split
  · rfl
  · split <;> rfl

theorem registry_expire : (s.expire id).registry = s.registry := by
  unfold expire
  split
  · split <;> rfl
  · rfl

theorem registry_notice : (s.notice id).registry = s.registry := by
  unfold notice
  split <;> rfl

theorem registry_abandon : (s.abandon id).registry = s.registry := by
  unfold abandon
  split
  · split <;> rfl
  · rfl

theorem registry_pass (ms : Nat) : (s.pass ms).registry = s.registry := by
  unfold pass
  split <;> rfl

end Quiet

section Step
variable {s : State} {id : String}

theorem hasEnded_of_withTask? {s' : State} {id' : String} {change : Task → Except Task.Refusal Unit × Task}
    (h : s.withTask? id' change = some s')
    (hkeep : ∀ {t u}, change t = (.ok (), u) → u.id = t.id ∧ (id = id' → u.isTerminal = t.isTerminal)) :
    s'.hasEnded id = s.hasEnded id := by
  obtain ⟨e, t, he, ht, rfl⟩ := withTask?_eq_some_iff.mp h
  obtain ⟨hid, hstatus⟩ := hkeep ht
  rw [hasEnded_amend he hid rfl]
  split
  · next hsame =>
    rw [hasEnded, hsame, he]
    exact hstatus hsame
  · rfl

theorem hasEnded_trigger {server id' : String} {force : Bool} {now : Int64}
    (hactive : s.hasEnded id = false) :
    (s.trigger server force id' now).2.hasEnded id = false := by
  cases h : s.trigger server force id' now with
  | mk result s' =>
    cases result with
    | error e =>
      rcases trigger_error h with rfl | rfl
      · exact hactive
      · exact hactive
    | ok t =>
      obtain ⟨e, he, hopen⟩ := hasEnded_eq_false_iff.mp hactive
      obtain ⟨script, total, registry, -, -, -, -, -, hcreate, rfl⟩ := trigger_ok h
      exact hasEnded_eq_false_iff.mpr ⟨e, Registry.find?_create_of_some hcreate he, hopen⟩

theorem hasEnded_cancel_of_ne {id' : String} {now : Int64} (hid : id ≠ id') :
    (s.step (.cancel id' now)).hasEnded id = s.hasEnded id := by
  rcases s.cancel_cases id' now with hsame | ⟨e, he, -, hs'⟩
  · rw [hsame]
  · rw [hs', hasEnded_amend (t := e.task.abandon Task.cancelledMessage now) he rfl rfl, if_neg hid]

theorem hasEnded_start {id' : String} : (s.start id').hasEnded id = s.hasEnded id := by
  rw [start_eq]
  split
  · rfl
  split
  · rfl
  next s' hsome =>
  have hkept : s'.hasEnded id = s.hasEnded id := by
    refine hasEnded_of_withTask? hsome fun ht => ?_
    obtain ⟨hpending, rfl⟩ := Task.start_ok ht
    exact ⟨rfl, fun _ => by simp [Task.isTerminal, hpending, Status.isTerminal]⟩
  split
  · exact hkept
  · exact hkept

theorem hasEnded_report {id' : String} {n : UInt32} :
    (s.report id' n).hasEnded id = s.hasEnded id := by
  unfold report
  split
  · rfl
  cases hsome : s.withTask? id' fun t => (.ok (), t.progress n) with
  | none => rfl
  | some s' =>
    refine hasEnded_of_withTask? hsome fun ht => ?_
    obtain rfl := (Prod.mk.inj ht).2
    exact ⟨(Task.progress_sameRebuild _ n).1, fun _ => Task.progress_isTerminal _ n⟩

/-- A worker that settles records its outcome, or leaves the task as it is. -/
theorem settle_cases (s : State) (id : String) (now : Int64) :
    (s.settle id now).registry = s.registry ∨
      ∃ w outcome e t, s.worker? id = some w ∧ w.phase = .settling outcome ∧
        s.registry.find? id = some e ∧ s.settleTask e.task outcome now = (.ok (), t) ∧
        (s.settle id now).registry = s.registry.amend e t := by
  rw [settle_eq]
  split
  · next hw =>
    split
    · exact .inl rfl
    · next hsome =>
      obtain ⟨e, t, he, ht, rfl⟩ := withTask?_eq_some_iff.mp hsome
      exact .inr ⟨_, _, e, t, hw, rfl, he, ht, rfl⟩
  · exact .inl rfl

theorem hasEnded_settle_of_ne {id' : String} {now : Int64} (hid : id ≠ id') :
    (s.settle id' now).hasEnded id = s.hasEnded id := by
  rcases s.settle_cases id' now with hsame | ⟨w, outcome, e, t, -, -, he, ht, hregistry⟩
  · exact hasEnded_congr hsame
  · rw [hasEnded_amend he (settleTask_ok ht).2.2.2.1 hregistry, if_neg hid]

/-- A task is ended by nothing but a cancellation or its worker. -/
theorem ended_by {e : Event} (hactive : s.hasEnded id = false)
    (hended : (s.step e).hasEnded id = true) :
    (∃ now, e = .cancel id now) ∨ ∃ now, e = .settle id now := by
  have hkept : (s.step e).hasEnded id ≠ s.hasEnded id := by rw [hactive, hended]; decide
  cases e with
  | trigger server force id' now => exact absurd ((hasEnded_trigger hactive).trans hactive.symm) hkept
  | cancel id' now =>
    by_cases hid : id = id'
    · exact .inl ⟨now, by rw [hid]⟩
    · exact absurd (hasEnded_cancel_of_ne hid) hkept
  | start id' => exact absurd hasEnded_start hkept
  | report id' n => exact absurd hasEnded_report hkept
  | settle id' now =>
    by_cases hid : id = id'
    · exact .inr ⟨now, by rw [hid]⟩
    · exact absurd (hasEnded_settle_of_ne hid) hkept
  | shutDown => exact absurd rfl hkept
  | edit inventory => exact absurd rfl hkept
  | revoke id' => exact absurd (hasEnded_congr (s.registry_revoke id')) hkept
  | finish id' result => exact absurd (hasEnded_congr (s.registry_finish id' result)) hkept
  | expire id' => exact absurd (hasEnded_congr (s.registry_expire id')) hkept
  | notice id' => exact absurd (hasEnded_congr (s.registry_notice id')) hkept
  | abandon id' => exact absurd (hasEnded_congr (s.registry_abandon id')) hkept
  | release id' => exact absurd (hasEnded_congr (s.registry_release id')) hkept
  | pass ms => exact absurd (hasEnded_congr (s.registry_pass ms)) hkept

/-- A cancellation that ends a task answers with it. -/
theorem cancel_of_ended {u : Task} {now : Int64} (hactive : s.hasEnded id = false)
    (hu : (s.step (.cancel id now)).registry.get id = .ok u) (hended : u.isTerminal = true) :
    (s.cancel id now).1 = .ok u ∧ u.errorMessage = some Task.cancelledMessage := by
  rcases s.cancel_cases id now with hsame | ⟨e, he, haccepted, hs'⟩
  · rw [hsame] at hu
    rw [hasEnded_of_get hu, hended] at hactive
    cases hactive
  · obtain ⟨e', he', rfl⟩ := Registry.get_eq_ok_iff.mp hu
    rw [hs', registry_withWorker,
      Registry.find?_amend (t := e.task.abandon Task.cancelledMessage now) he rfl, if_pos rfl] at he'
    obtain rfl := Option.some.inj he'
    exact ⟨haccepted, rfl⟩

/-- A worker that ends a task records its outcome. -/
theorem settle_of_ended {u : Task} {now : Int64} (hactive : s.hasEnded id = false)
    (hu : (s.step (.settle id now)).registry.get id = .ok u) (hended : u.isTerminal = true) :
    ∃ w outcome e, s.worker? id = some w ∧ w.phase = .settling outcome ∧
      s.registry.find? id = some e ∧ s.settleTask e.task outcome now = (.ok (), u) := by
  rw [State.step] at hu
  rcases s.settle_cases id now with hsame | ⟨w, outcome, e, t, hw, hphase, he, ht, hregistry⟩
  · rw [← hasEnded_congr hsame, hasEnded_of_get hu, hended] at hactive
    cases hactive
  · obtain ⟨e', he', rfl⟩ := Registry.get_eq_ok_iff.mp hu
    rw [hregistry, Registry.find?_amend he (settleTask_ok ht).2.2.2.1, if_pos rfl] at he'
    obtain rfl := Option.some.inj he'
    exact ⟨w, outcome, e, hw, hphase, he, ht⟩

end Step

section Run
variable {first : State} {t u : Task} {events : List Event} {cause : Cause}

/-- A run fails a task in one way. -/
theorem FailedBy.unique (hs : first.Coherent) (h : first.FailedBy t u events cause) {other : Cause}
    (h' : first.FailedBy t u events other) : other = cause := by
  cases h with
  | cancelled last accepted =>
    cases h' with
    | cancelled last' accepted' => rfl
    | settled last' worker phase decided hother => cases (last.unique hs last').2
  | settled last worker phase decided hcause =>
    cases h' with
    | cancelled last' accepted' => cases (last.unique hs last').2
    | settled last' worker' phase' decided' hother =>
      obtain ⟨rfl, -⟩ := last.unique hs last'
      obtain rfl := Option.some.inj (worker.symm.trans worker')
      exact Cause.eq_of_outcome (Phase.settling.inj (phase'.symm.trans phase)) hcause hother

end Run

end State
end FirewallRollout.Rebuild
