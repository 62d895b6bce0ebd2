import FirewallRollout.Proofs.Rebuild.Calls
import FirewallRollout.Proofs.Script.Assembly

/-!
# Coherence of the workers with the rest of the state

The registry, the workers and the history of calls are kept apart and changed by different steps.
Coherence ties them together: a worker stands for a registered task, its phase tells how far the task
is, and the calls of the task are those that the phase allows. It holds in every state of a run.
-/
namespace FirewallRollout.Rebuild

/-- The status that a task may have while its worker is in a phase. A task may be failed by a
cancellation whatever its worker does. -/
def Phase.admits : Phase → Status → Bool
  | .queued, status => status = .pending || status = .failed
  | .executing _, status | .winding .., status | .settling _, status =>
    status = .running || status = .failed
  | .releasing, status => status.isTerminal

theorem Phase.admits_failed (p : Phase) : p.admits .failed = true := by
  cases p <;> rfl

namespace State

/-- The orchestrator as it is made, before anything was asked of it. -/
def initial (settings : Settings) (inventory : Inventory) (registry : Registry) : State :=
  { settings, inventory, registry }

/-- The states of a run, the first one included. -/
def trace (s : State) (events : List Event) : List State := events.scanl step s

end State

namespace Worker

/-- What a worker has called so far, by its phase. -/
def Called (w : Worker) (calls : List Call) : Prop :=
  match w.phase with
  | .queued => calls = []
  | .executing _ => w.unchanged = false ∧ calls = [{ plan := w.plan }]
  | .winding outcome _ =>
    w.unchanged = false ∧ outcome ≠ .applied ∧ calls = [{ plan := w.plan }]
  | .settling .applied =>
    if w.unchanged then calls = [] else calls = [{ plan := w.plan, result := some (.ok ()) }]
  | .settling _ => w.unchanged = false ∧ ∃ result, calls = [{ plan := w.plan, result }]
  | .releasing => True

/-- A worker as it fits into a state. -/
structure Fits (w : Worker) (s : State) : Prop where
  registered : ∃ e, s.registry.find? w.task.id = some e ∧ w.task.SameRebuild e.task ∧
    w.phase.admits e.task.status = true
  scripted : Scripted w.task.server w.script
  called : w.Called (s.callsOf w.task.id)

end Worker

/-- Every worker fits, and a task that is not registered has made no call. -/
structure State.Coherent (s : State) : Prop where
  fits : ∀ {id w}, s.worker? id = some w → w.Fits s
  uncalled : ∀ {id}, s.registry.find? id = none → s.callsOf id = []

namespace State
open Worker

theorem coherent_initial (settings : Settings) (inventory : Inventory) (registry : Registry) :
    (initial settings inventory registry).Coherent where
  fits h := by simp [initial, worker?] at h
  uncalled _ := rfl

/-- Its token has nothing to do with whether a worker fits. -/
theorem fits_cancelled {w : Worker} {s : State} (h : w.Fits s) :
    Worker.Fits { w with cancelled := true } s := ⟨h.registered, h.scripted, h.called⟩

/-- A worker that settles anything but rules applied has made its one call. -/
theorem called_settling {w : Worker} {outcome : Outcome} {calls : List Call}
    (houtcome : outcome ≠ .applied) (hchanged : w.unchanged = false)
    (hcalls : ∃ result, calls = [{ plan := w.plan, result }]) :
    Called { w with phase := .settling outcome } calls := by
  cases outcome with
  | applied => exact absurd rfl houtcome
  | failed f => exact ⟨hchanged, hcalls⟩
  | timedOut => exact ⟨hchanged, hcalls⟩
  | interrupted => exact ⟨hchanged, hcalls⟩

/-- Rules count as applied after a call only when it returned well. -/
theorem called_outcomeOf {w : Worker} (hchanged : w.unchanged = false) (result : Executor.Result) :
    Called { w with phase := .settling (outcomeOf w result) }
      [{ plan := w.plan, result := some result }] := by
  cases result with
  | ok u => simp [Called, outcomeOf, hchanged, Worker.plan]
  | error f =>
    refine called_settling ?_ hchanged ⟨_, rfl⟩
    cases hc : w.cancelled <;> simp [outcomeOf, hc]

/-- A task is not pending any more once its worker has left the queue. -/
theorem Coherent.started {s : State} (hs : s.Coherent) {w : Worker} {e : Registry.Entry}
    (hw : s.worker? w.task.id = some w) (he : s.registry.find? w.task.id = some e)
    (hphase : w.phase ≠ .queued) : e.task.status ≠ .pending := by
  obtain ⟨e', he', -, hadmits⟩ := (hs.fits hw).registered
  obtain rfl := Option.some.inj (he.symm.trans he')
  intro hp
  rw [hp] at hadmits
  cases hw : w.phase with
  | queued => exact hphase hw
  | _ => simp [hw, Phase.admits, Status.isTerminal] at hadmits

/-- A worker that is in a call has made this call alone, and it has not returned. -/
theorem Coherent.callsOf_calling {s : State} (hs : s.Coherent) {w : Worker}
    (hw : s.worker? w.task.id = some w) (hphase : isCalling w.phase = true) :
    w.unchanged = false ∧ s.callsOf w.task.id = [{ plan := w.plan }] := by
  have hcalled := (hs.fits hw).called
  rcases isCalling_iff.mp hphase with ⟨deadline, hp⟩ | ⟨outcome, limit, hp⟩ <;>
    rw [Worker.Called, hp] at hcalled
  · exact hcalled
  · exact ⟨hcalled.1, hcalled.2.2⟩

/-- A worker that has applied its commands without skipping its call has made it, and it returned
well. -/
theorem Coherent.callsOf_applied {s : State} (hs : s.Coherent) {id : String} {w : Worker}
    (hw : s.worker? id = some w) (hphase : w.phase = .settling .applied)
    (hchanged : w.unchanged = false) :
    s.callsOf id = [{ plan := w.plan, result := some (.ok ()) }] := by
  have hcalled := (hs.fits hw).called
  rw [Worker.Called, hphase] at hcalled
  simpa [hchanged, id_of_worker? hw] using hcalled

theorem Coherent.callsOf_skipped {s : State} (hs : s.Coherent) {id : String} {w : Worker}
    (hw : s.worker? id = some w) (hphase : w.phase = .settling .applied)
    (hunchanged : w.unchanged = true) : s.callsOf id = [] := by
  have hcalled := (hs.fits hw).called
  rw [Worker.Called, hphase] at hcalled
  simpa [hunchanged, id_of_worker? hw] using hcalled

/-- A worker lets go only after its task has ended. -/
theorem Coherent.hasEnded_of_releasing {s : State} (hs : s.Coherent) {id : String} {w : Worker}
    (hw : s.worker? id = some w) (hphase : w.phase = .releasing) : s.hasEnded id = true := by
  obtain ⟨e, he, -, hended⟩ := (hs.fits hw).registered
  rw [id_of_worker? hw] at he
  rw [hphase] at hended
  rw [hasEnded, he]
  exact hended

/-- What is not looked at may change. -/
theorem Coherent.congr {s s' : State} (hs : s.Coherent) (hworkers : s'.workers = s.workers)
    (hentries : s'.registry.entries = s.registry.entries) (hcalls : s'.calls = s.calls) :
    s'.Coherent where
  fits {id w} hw := by
    have hw' : s.worker? id = some w := by rw [← hw, worker?, worker?, hworkers]
    have hfits := hs.fits hw'
    have hfind : s'.registry.find? w.task.id = s.registry.find? w.task.id := by
      rw [Registry.find?, Registry.find?, hentries]
    refine ⟨by rw [hfind]; exact hfits.registered, hfits.scripted, ?_⟩
    rw [callsOf, hcalls]
    exact hfits.called
  uncalled {id} hid := by
    rw [callsOf, hcalls]
    exact hs.uncalled (by rw [← hid, Registry.find?, Registry.find?, hentries])

/-- A step on one task has to keep the phase of its worker in line with its status and its calls. -/
theorem Coherent.change {s s' : State} {id : String} {e : Registry.Entry} {t : Task}
    {change : Worker → Worker} (hs : s.Coherent) (hsame : e.task.SameRebuild t)
    (hentry : s.registry.find? id = some e)
    (hfind : ∀ id', s'.registry.find? id' =
      if id' = id then some { e with task := t } else s.registry.find? id')
    (hworker : ∀ id', s'.worker? id' =
      if id' = id then (s.worker? id).map change else s.worker? id')
    (hcalls : ∀ id', id' ≠ id → s'.callsOf id' = s.callsOf id')
    (hfits : ∀ w, s.worker? id = some w → w.phase.admits e.task.status = true →
      w.Called (s.callsOf id) → (change w).task = w.task ∧ (change w).script = w.script ∧
        (change w).phase.admits t.status = true ∧ (change w).Called (s'.callsOf id)) :
    s'.Coherent where
  fits {id' w'} hw' := by
    rw [hworker] at hw'
    split at hw'
    · obtain ⟨w, hw, rfl⟩ := Option.map_eq_some_iff.mp hw'
      obtain ⟨e', he', hsame', hadmits'⟩ := (hs.fits hw).registered
      obtain rfl := id_of_worker? hw
      obtain rfl := Option.some.inj (hentry.symm.trans he')
      obtain ⟨htask, hscript, hadmits, hcalled⟩ := hfits w hw hadmits' (hs.fits hw).called
      refine ⟨⟨{ e with task := t }, ?_, ?_, hadmits⟩, ?_, ?_⟩
      · rw [htask, hfind, if_pos rfl]
      · rw [htask]
        exact hsame'.trans hsame
      · rw [htask, hscript]
        exact (hs.fits hw).scripted
      · rw [htask]
        exact hcalled
    · next hid =>
      have hfits' := hs.fits hw'
      obtain rfl := id_of_worker? hw'
      refine ⟨?_, hfits'.scripted, ?_⟩
      · rw [hfind, if_neg hid]
        exact hfits'.registered
      · rw [hcalls _ hid]
        exact hfits'.called
  uncalled {id'} hid' := by
    rw [hfind] at hid'
    split at hid'
    · cases hid'
    · next hid =>
      rw [hcalls _ hid]
      exact hs.uncalled hid'

/-- A step on a worker alone. -/
theorem Coherent.withWorker {s : State} {w : Worker} {change : Worker → Worker} (hs : s.Coherent)
    (found : s.worker? w.task.id = some w)
    (hkeep : ∀ v, (change v).task = v.task ∧ (change v).script = v.script)
    (hfits : ∀ e, s.registry.find? w.task.id = some e → w.phase.admits e.task.status = true →
      w.Called (s.callsOf w.task.id) → (change w).phase.admits e.task.status = true ∧
        (change w).Called (s.callsOf w.task.id)) :
    (s.withWorker w.task.id change).Coherent := by
  obtain ⟨e, he, -, -⟩ := (hs.fits found).registered
  refine hs.change (.refl e.task) he (Registry.find?_self he)
    (worker?_withWorker _ _ _ fun v => (hkeep v).1) (fun _ _ => rfl) fun v hv hadmits hcalled => ?_
  obtain rfl := Option.some.inj (found.symm.trans hv)
  exact ⟨(hkeep w).1, (hkeep w).2, hfits e he hadmits hcalled⟩

/-- A call that returns leaves its worker with an outcome that the result allows. -/
theorem Coherent.returned {s : State} {w : Worker} {outcome : Outcome} {result : Executor.Result}
    (hs : s.Coherent) (found : s.worker? w.task.id = some w) (hphase : isCalling w.phase = true)
    (hcalled : Called { w with phase := .settling outcome }
      [{ plan := w.plan, result := some result }]) :
    ((s.withResult w.task.id result).withWorker w.task.id
      fun v => { v with phase := .settling outcome }).Coherent := by
  obtain ⟨e, he, -, -⟩ := (hs.fits found).registered
  refine hs.change (.refl e.task) he (Registry.find?_self he) (worker?_withWorker _ _ _ fun _ => rfl)
    ?_ fun v hv hadmits _ => ?_
  · intro id' hid
    rw [callsOf_withWorker, callsOf_withResult, if_neg hid]
  · obtain rfl := Option.some.inj (found.symm.trans hv)
    refine ⟨rfl, rfl, ?_, ?_⟩
    · rcases isCalling_iff.mp hphase with ⟨deadline, hp⟩ | ⟨given_up, limit, hp⟩
      · rwa [hp] at hadmits
      · rwa [hp] at hadmits
    · rw [callsOf_withWorker, callsOf_withResult, if_pos rfl, (hs.callsOf_calling found hphase).2]
      exact hcalled

/-- A new task has made no call, and its worker is in the queue. -/
theorem Coherent.triggered {s s' : State} (hs : s.Coherent) {t : Task} {w : Worker}
    (created : s.registry.create t = (.ok t, s'.registry))
    (hworkers : s'.workers = s.workers ++ [w]) (hcalls : s'.calls = s.calls) (htask : w.task = t)
    (hphase : w.phase = .queued) (hpending : t.status = .pending)
    (hscripted : Scripted t.server w.script) : s'.Coherent where
  fits {id' w'} hw' := by
    rw [worker?_append hworkers, Option.or_eq_some_iff] at hw'
    rcases hw' with hw | ⟨-, hw⟩
    · have hfits := hs.fits hw
      obtain ⟨e, he, hsame, hadmits⟩ := hfits.registered
      refine ⟨⟨e, Registry.find?_create_of_some created he, hsame, hadmits⟩, hfits.scripted, ?_⟩
      rw [callsOf_congr hcalls]
      exact hfits.called
    · split at hw
      · obtain rfl := Option.some.inj hw
        subst htask
        refine ⟨⟨_, (Registry.find?_create created _).trans (if_pos rfl), .refl _, ?_⟩, hscripted, ?_⟩
        · simp [hphase, hpending, Phase.admits]
        · rw [Worker.Called, hphase, callsOf_congr hcalls]
          exact hs.uncalled (Registry.create_ok created).2.1
      · cases hw
  uncalled {id'} hid' := by
    rw [callsOf_congr hcalls]
    rw [Registry.find?_create created] at hid'
    split at hid'
    · cases hid'
    · exact hs.uncalled hid'

end State

namespace Effect
open State

/-- Every step keeps a coherent state coherent. -/
theorem coherent {s s' : State} (h : Effect s s') (hs : s.Coherent) : s'.Coherent := by
  cases h with
  | nothing => exact hs
  | refused => exact hs.congr rfl rfl rfl
  | edited inventory => exact hs.congr rfl rfl rfl
  | passed ms => exact hs.congr rfl rfl rfl
  | shutDown =>
    refine ⟨fun {id w'} hw' => ?_, hs.uncalled⟩
    rw [worker?_shutDown] at hw'
    obtain ⟨w, hw, rfl⟩ := Option.map_eq_some_iff.mp hw'
    have hfits := fits_cancelled (hs.fits hw)
    exact ⟨hfits.registered, hfits.scripted, hfits.called⟩
  | triggered accepting free scripted counted created =>
    exact hs.triggered created rfl rfl rfl rfl rfl (scripted_of_scriptFor scripted counted)
  | @cancelled e now found active =>
    refine hs.change (t := e.task.abandon Task.cancelledMessage now) ⟨rfl, rfl, rfl, rfl, rfl⟩ found
      (Registry.find?_amend found rfl) (worker?_withWorker _ _ _ fun _ => rfl) (fun _ _ => rfl)
      fun w hw _ hcalled => ?_
    exact ⟨rfl, rfl, w.phase.admits_failed, hcalled⟩
  | startRefused found phase late =>
    refine hs.withWorker found (fun _ => ⟨rfl, rfl⟩) fun e he hadmits _ => ⟨?_, trivial⟩
    rw [phase] at hadmits
    have hlate := late e he
    cases hstatus : e.task.status <;> simp_all [Phase.admits, Status.isTerminal]
  | @skipped w e found phase entry pending unchanged =>
    refine hs.change (t := { e.task with status := .running }) (.refl e.task) entry
      (Registry.find?_amend entry rfl) (worker?_withWorker _ _ _ fun _ => rfl) (fun _ _ => rfl)
      fun v hv _ hcalled => ?_
    obtain rfl := Option.some.inj (found.symm.trans hv)
    rw [Worker.Called, phase] at hcalled
    exact ⟨rfl, rfl, rfl, (if_pos unchanged).mpr hcalled⟩
  | @called w e deadline found phase entry pending unchanged =>
    refine hs.change (t := { e.task with status := .running }) (.refl e.task) entry
      (Registry.find?_amend entry rfl) (worker?_withWorker _ _ _ fun _ => rfl) ?_
      fun v hv _ hcalled => ?_
    · intro id' hid
      simp [callsOf, Worker.plan, Ne.symm hid]
    · obtain rfl := Option.some.inj (found.symm.trans hv)
      rw [Worker.Called, phase] at hcalled
      refine ⟨rfl, rfl, rfl, unchanged, ?_⟩
      simpa [callsOf, Worker.plan] using hcalled
  | @reported w e n found phase entry =>
    have hworker : ∀ id', s.worker? id' =
        if id' = w.task.id then (s.worker? w.task.id).map id else s.worker? id' := by
      intro id'
      split
      · next hid => rw [hid, Option.map_id, id]
      · rfl
    refine hs.change (Task.progress_sameRebuild e.task n) entry
      (Registry.find?_amend entry (Task.progress_sameRebuild e.task n).1) hworker (fun _ _ => rfl)
      fun v hv hadmits hcalled => ?_
    exact ⟨rfl, rfl, by rwa [Task.progress_status], hcalled⟩
  | revoked found phase =>
    exact hs.withWorker found (fun _ => ⟨rfl, rfl⟩) fun e he hadmits hcalled => ⟨hadmits, hcalled⟩
  | finished result found phase =>
    have hcalling := isCalling_iff.mpr (.inl ⟨_, phase⟩)
    exact hs.returned found hcalling
      (called_outcomeOf (hs.callsOf_calling found hcalling).1 result)
  | finishedLate result found phase =>
    have hcalled := (hs.fits found).called
    rw [Worker.Called, phase] at hcalled
    obtain ⟨hchanged, happlied, -⟩ := hcalled
    exact hs.returned found (isCalling_iff.mpr (.inr ⟨_, _, phase⟩))
      (called_settling happlied hchanged ⟨_, rfl⟩)
  | wound found phase due =>
    refine hs.withWorker found (fun _ => ⟨rfl, rfl⟩) fun e he hadmits hcalled => ?_
    rw [phase] at hadmits
    rw [Worker.Called, phase] at hcalled
    exact ⟨hadmits, hcalled.1, s.stopOutcome_ne_applied _, hcalled.2⟩
  | abandoned found phase due =>
    refine hs.withWorker found (fun _ => ⟨rfl, rfl⟩) fun e he hadmits hcalled => ?_
    rw [phase] at hadmits
    rw [Worker.Called, phase] at hcalled
    obtain ⟨hchanged, happlied, hcalled⟩ := hcalled
    exact ⟨hadmits, called_settling happlied hchanged ⟨_, hcalled⟩⟩
  | settleRefused found phase late =>
    exact hs.withWorker found (fun _ => ⟨rfl, rfl⟩) fun e he _ _ => ⟨late e he, trivial⟩
  | @settled w outcome e t now found phase entry recorded =>
    obtain ⟨-, hfollows, hended, hid, -⟩ := settleTask_ok recorded
    have hstarted := hs.started found entry (by simp [phase])
    refine hs.change (t := t) (hfollows hstarted).same entry (Registry.find?_amend entry hid)
      (worker?_withWorker _ _ _ fun _ => rfl) (fun _ _ => rfl) fun v hv _ _ => ?_
    exact ⟨rfl, rfl, hended, trivial⟩
  | @released w found phase =>
    refine ⟨fun {id' w'} hw' => ?_, hs.uncalled⟩
    have hw := (worker?_filter (s := s) rfl id').symm.trans hw'
    split at hw
    · cases hw
    have hfits := hs.fits hw
    exact ⟨hfits.registered, hfits.scripted, hfits.called⟩

end Effect

namespace State

theorem Coherent.run {s : State} (hs : s.Coherent) (events : List Event) : (s.run events).Coherent :=
  run_preserves Effect.coherent hs events

end State
end FirewallRollout.Rebuild
