import FirewallRollout.Proofs.Rebuild.Attendance
import FirewallRollout.Proofs.Rebuild.History

/-!
# How long a worker may last

The clock never passes a moment at which a worker has something to do. So a worker whose executor has
to stop by some moment, because its budget ends then or because it was told to stop, is gone by the
end of the grace period after that moment, whatever the executor does.
-/
namespace FirewallRollout.Rebuild

/-- The grace period in milliseconds. -/
def State.graceMs (s : State) : Nat := 1000 * s.settings.cancelGrace.toNat

/-- What one step does to a worker, with the time at which it does so. -/
inductive Worker.Moves (s s' : State) (w : Worker) : Worker → Prop
  | stays (clock : s'.clock = s.clock) (down : s'.shuttingDown = s.shuttingDown) : Moves s s' w w
  /-- The clock moves on to a moment at which the worker has nothing to do yet. -/
  | waits {ms : Nat} (clock : s'.clock = s.clock + ms) (down : s'.shuttingDown = s.shuttingDown)
      (idle : w.isUrgent = false) (within : ∀ limit, w.deadline? = some limit → s.clock + ms ≤ limit) :
      Moves s s' w w
  | token (clock : s'.clock = s.clock) : Moves s s' w { w with cancelled := true }
  | winds {deadline : Nat} (clock : s'.clock = s.clock) (down : s'.shuttingDown = s.shuttingDown)
      (phase : w.phase = .executing deadline) (outcome : Outcome) :
      Moves s s' w { w with
        cancelled := true
        phase := .winding outcome (s.clock + s.graceMs) }
  | acts {phase : Phase} (clock : s'.clock = s.clock) (down : s'.shuttingDown = s.shuttingDown)
      (next : w.phase.Next phase) (moved : phase ≠ w.phase)
      (awake : ∀ outcome limit, phase ≠ .winding outcome limit)
      (timed : ∀ deadline, phase = .executing deadline → s.clock ≤ deadline) :
      Moves s s' w { w with phase }

namespace State

theorem mayPass_worker {s : State} {ms : Nat} (h : s.mayPass ms = true) {id : String} {w : Worker}
    (hw : s.worker? id = some w) :
    w.isUrgent = false ∧ ∀ limit, w.deadline? = some limit → s.clock + ms ≤ limit := by
  have hworker := List.all_eq_true.mp h w (List.mem_of_find?_eq_some hw)
  simpa [Option.all_eq_true] using hworker

/-- When one worker makes a move, every worker makes one or stays as it is. -/
theorem moves_of_withWorker {s s₁ : State} {id id' : String} {change : Worker → Worker} {w' : Worker}
    (h : (s₁.withWorker id change).worker? id' = some w') (hworkers : s₁.workers = s.workers)
    (hclock : s₁.clock = s.clock) (hdown : s₁.shuttingDown = s.shuttingDown)
    (hkeep : ∀ w, (change w).task = w.task)
    (hchange : ∀ w, s.worker? id = some w → w.Moves s (s₁.withWorker id change) (change w)) :
    ∃ w, s.worker? id' = some w ∧ w.Moves s (s₁.withWorker id change) w' := by
  have hsame : ∀ id, s₁.worker? id = s.worker? id := fun id => by rw [worker?, worker?, hworkers]
  rw [worker?_withWorker _ _ _ hkeep, hsame, hsame] at h
  split at h
  · next hid =>
    obtain ⟨w, hw, rfl⟩ := Option.map_eq_some_iff.mp h
    exact ⟨w, by rw [hid, hw], hchange w hw⟩
  · exact ⟨w', h, .stays hclock hdown⟩

/-- The move of a worker that was found. -/
theorem moves_of_found {s s₁ : State} {v w' : Worker} {id : String} {change : Worker → Worker}
    (h : (s₁.withWorker v.task.id change).worker? id = some w')
    (found : s.worker? v.task.id = some v) (hworkers : s₁.workers = s.workers)
    (hclock : s₁.clock = s.clock) (hdown : s₁.shuttingDown = s.shuttingDown)
    (hkeep : ∀ w, (change w).task = w.task)
    (hchange : v.Moves s (s₁.withWorker v.task.id change) (change v)) :
    ∃ w, s.worker? id = some w ∧ w.Moves s (s₁.withWorker v.task.id change) w' := by
  apply moves_of_withWorker h hworkers hclock hdown hkeep
  intro w hw
  obtain rfl := Option.some.inj (found.symm.trans hw)
  exact hchange

end State

namespace Effect
open State Worker

/-- A worker was there before, and has made one of its moves, or it is new. -/
theorem worker_moves {s s' : State} (h : Effect s s') {id : String} {w' : Worker}
    (hw' : s'.worker? id = some w') :
    (∃ w, s.worker? id = some w ∧ w.Moves s s' w') ∨
      (s.registry.find? id = none ∧ w'.phase = .queued ∧ s.shuttingDown = false ∧
        s'.shuttingDown = false) := by
  cases h with
  | nothing => exact .inl ⟨w', hw', .stays rfl rfl⟩
  | refused => exact .inl ⟨w', hw', .stays rfl rfl⟩
  | edited inventory => exact .inl ⟨w', hw', .stays rfl rfl⟩
  | reported n found phase entry => exact .inl ⟨w', hw', .stays rfl rfl⟩
  | passed ms allowed =>
    obtain ⟨hidle, hwithin⟩ := mayPass_worker allowed hw'
    exact .inl ⟨w', hw', .waits rfl rfl hidle hwithin⟩
  | cancelled found active =>
    exact .inl (moves_of_withWorker hw' rfl rfl rfl (fun _ => rfl) fun w _ => .token rfl)
  | revoked found phase =>
    exact .inl (moves_of_found hw' found rfl rfl rfl (fun _ => rfl) (.token rfl))
  | startRefused found phase late =>
    refine .inl (moves_of_found hw' found rfl rfl rfl (fun _ => rfl) ?_)
    exact .acts rfl rfl (phase ▸ .refuse) (by simp [phase]) (by simp) (by simp)
  | skipped found phase entry pending unchanged =>
    refine .inl (moves_of_found hw' found rfl rfl rfl (fun _ => rfl) ?_)
    exact .acts rfl rfl (phase ▸ .skip) (by simp [phase]) (by simp) (by simp)
  | called deadline found phase entry pending unchanged timed =>
    refine .inl (moves_of_found hw' found rfl rfl rfl (fun _ => rfl) ?_)
    refine .acts rfl rfl (phase ▸ .call deadline) (by simp [phase]) (by simp) fun limit hlimit => ?_
    obtain rfl := Phase.executing.inj hlimit
    omega
  | finished result found phase =>
    refine .inl (moves_of_found hw' found rfl rfl rfl (fun _ => rfl) ?_)
    exact .acts rfl rfl (phase ▸ .finish _ _) (by simp [phase]) (by simp) (by simp)
  | finishedLate result found phase =>
    refine .inl (moves_of_found hw' found rfl rfl rfl (fun _ => rfl) ?_)
    exact .acts rfl rfl (phase ▸ .stop _ _) (by simp [phase]) (by simp) (by simp)
  | wound found phase due =>
    refine .inl (moves_of_found hw' found rfl rfl rfl (fun _ => rfl) ?_)
    exact .winds (by rfl) (by rfl) phase _
  | abandoned found phase due =>
    refine .inl (moves_of_found hw' found rfl rfl rfl (fun _ => rfl) ?_)
    exact .acts rfl rfl (phase ▸ .stop _ _) (by simp [phase]) (by simp) (by simp)
  | settleRefused found phase late =>
    refine .inl (moves_of_found hw' found rfl rfl rfl (fun _ => rfl) ?_)
    exact .acts rfl rfl (phase ▸ .settle _) (by simp [phase]) (by simp) (by simp)
  | settled now found phase entry recorded =>
    refine .inl (moves_of_found hw' found rfl rfl rfl (fun _ => rfl) ?_)
    exact .acts rfl rfl (phase ▸ .settle _) (by simp [phase]) (by simp) (by simp)
  | shutDown =>
    rw [worker?_shutDown] at hw'
    obtain ⟨w, hw, rfl⟩ := Option.map_eq_some_iff.mp hw'
    exact .inl ⟨w, hw, .token rfl⟩
  | released found phase =>
    have hw := (worker?_filter (s := s) rfl id).symm.trans hw'
    split at hw
    · cases hw
    · exact .inl ⟨w', hw, .stays rfl rfl⟩
  | triggered accepting free scripted counted created =>
    rw [worker?_append (s := s) rfl, Option.or_eq_some_iff] at hw'
    rcases hw' with hw | ⟨-, hw⟩
    · exact .inl ⟨w', hw, .stays rfl rfl⟩
    · split at hw
      · next hid =>
        obtain rfl := Option.some.inj hw
        rw [hid]
        exact .inr ⟨(Registry.create_ok created).2.1, rfl, accepting, accepting⟩
      · cases hw

end Effect

namespace Worker

/-- Neither the budget nor the grace period is over, and nobody goes on once a shutdown has begun. -/
structure Timely (w : Worker) (s : State) : Prop where
  executing : ∀ deadline, w.phase = .executing deadline → s.clock ≤ deadline
  winding : ∀ outcome limit, w.phase = .winding outcome limit →
    s.clock ≤ limit ∧ limit ≤ s.clock + s.graceMs
  stopped : s.shuttingDown = true → w.cancelled = true

/-- The executor is told to stop by a moment at the latest, so that the worker is gone by the end of
the grace period after it. -/
def StopsBy (w : Worker) (s : State) (stop : Nat) : Prop :=
  match w.phase with
  | .queued => w.cancelled = true ∧ s.clock ≤ stop
  | .executing deadline => (w.cancelled = true ∨ deadline ≤ stop) ∧ s.clock ≤ stop
  | .winding _ limit => s.clock ≤ limit ∧ limit ≤ stop + s.graceMs
  | .settling _ | .releasing => s.clock ≤ stop + s.graceMs

end Worker

theorem Worker.Moves.stopped {s s' : State} {w w' : Worker} (h : w.Moves s s' w')
    (hw : s.shuttingDown = true → w.cancelled = true) :
    s'.shuttingDown = true → w'.cancelled = true := by
  cases h with
  | stays clock down => exact fun hs' => hw (down ▸ hs')
  | waits clock down idle within => exact fun hs' => hw (down ▸ hs')
  | token clock => exact fun _ => rfl
  | winds clock down phase outcome => exact fun _ => rfl
  | acts clock down next moved awake => exact fun hs' => hw (down ▸ hs')

section Moves
variable {s s' : State} {w w' : Worker} (h : w.Moves s s' w') (hsettings : s'.settings = s.settings)
include h hsettings

theorem Worker.Moves.timely (hw : w.Timely s) : w'.Timely s' := by
  have hgrace : s'.graceMs = s.graceMs := by rw [State.graceMs, hsettings, State.graceMs]
  refine ⟨fun deadline hphase => ?_, fun outcome limit hphase => ?_, h.stopped hw.stopped⟩
  · cases h with
    | stays clock down => exact clock ▸ hw.executing deadline hphase
    | waits clock down idle within =>
      exact clock ▸ within deadline (by simp [Worker.deadline?, hphase])
    | token clock => exact clock ▸ hw.executing deadline hphase
    | winds clock down phase outcome => cases hphase
    | acts clock down next moved awake timed => exact clock ▸ timed deadline hphase
  cases h with
  | stays clock down =>
    rw [clock, hgrace]
    exact hw.winding outcome limit hphase
  | waits clock down idle within =>
    have hlimit := within limit (by simp [Worker.deadline?, hphase])
    have := hw.winding outcome limit hphase
    omega
  | token clock =>
    rw [clock, hgrace]
    exact hw.winding outcome limit hphase
  | winds clock down phase outcome' =>
    obtain ⟨rfl, rfl⟩ := Phase.winding.inj hphase
    omega
  | acts clock down next moved awake => exact absurd hphase (awake outcome limit)

theorem Worker.Moves.stopsBy {stop : Nat} (hw : w.StopsBy s stop) : w'.StopsBy s' stop := by
  have hgrace : s'.graceMs = s.graceMs := by rw [State.graceMs, hsettings, State.graceMs]
  cases h with
  | stays clock down =>
    rw [Worker.StopsBy, clock, hgrace]
    exact hw
  | waits clock down idle within =>
    -- only a worker that waits for its executor lets the clock move on
    cases hphase : w.phase with
    | executing deadline =>
      simp only [Worker.isUrgent, Worker.deadline?, hphase] at idle within
      simp only [Worker.StopsBy, hphase, idle, Bool.false_eq_true, false_or] at hw ⊢
      have := within deadline rfl
      omega
    | winding outcome limit =>
      simp only [Worker.deadline?, hphase] at within
      simp only [Worker.StopsBy, hphase] at hw ⊢
      have := within limit rfl
      omega
    | _ => simp [Worker.isUrgent, hphase] at idle
  | token clock =>
    unfold Worker.StopsBy at hw ⊢
    rw [clock, hgrace]
    cases hphase : w.phase <;> simp only [hphase] at hw ⊢ <;> simp [hw]
  | winds clock down phase outcome =>
    simp only [Worker.StopsBy, phase] at hw ⊢
    omega
  | acts clock down next moved awake =>
    unfold Worker.StopsBy at hw ⊢
    rw [clock, hgrace]
    generalize w.phase = before at next moved hw
    cases next with
    | stay => exact absurd rfl moved
    | call deadline => exact ⟨.inl hw.1, hw.2⟩
    | wind deadline limit given_up => exact absurd rfl (awake _ limit)
    | stop outcome limit => exact hw.1.trans hw.2
    | settle outcome => exact hw
    | refuse => exact hw.2.trans (Nat.le_add_right _ _)
    | skip => exact hw.2.trans (Nat.le_add_right _ _)
    | finish deadline outcome => exact hw.2.trans (Nat.le_add_right _ _)

end Moves

namespace Worker
variable {w : Worker} {s : State} {stop : Nat}

/-- A worker that is told to stop now. -/
theorem Timely.stopsBy (h : w.Timely s) (hcancelled : w.cancelled = true) : w.StopsBy s s.clock := by
  unfold StopsBy
  split
  · exact ⟨hcancelled, Nat.le_refl _⟩
  · exact ⟨.inl hcancelled, Nat.le_refl _⟩
  · next hphase => exact h.winding _ _ hphase
  · exact Nat.le_add_right _ _
  · exact Nat.le_add_right _ _

/-- No worker is there after its grace period. -/
theorem StopsBy.clock_le (h : w.StopsBy s stop) : s.clock ≤ stop + s.graceMs := by
  unfold StopsBy at h
  split at h <;> omega

end Worker

namespace State

/-- The grace periods of all workers are kept. -/
def Timely (s : State) : Prop := ∀ {id w}, s.worker? id = some w → w.Timely s

/-- The worker of a task, if there still is one, stops by a moment. -/
def StopsBy (s : State) (id : String) (stop : Nat) : Prop :=
  ∀ w, s.worker? id = some w → w.StopsBy s stop

theorem timely_initial (settings : Settings) (inventory : Inventory) (registry : Registry) :
    (initial settings inventory registry).Timely := by
  intro id w hw
  simp [initial, worker?] at hw

theorem StopsBy.worker?_eq_none {s : State} {id : String} {stop : Nat} (h : s.StopsBy id stop)
    (hlate : stop + s.graceMs < s.clock) : s.worker? id = none := by
  cases hw : s.worker? id with
  | none => rfl
  | some w =>
    have := (h w hw).clock_le
    omega

end State

namespace Effect
open State
variable {s s' : State}

theorem timely (h : Effect s s') (hs : s.Timely) : s'.Timely := by
  intro id w' hw'
  rcases h.worker_moves hw' with ⟨w, hw, hmoves⟩ | ⟨-, hphase, -, hdown⟩
  · exact hmoves.timely h.settings_eq (hs hw)
  · refine ⟨fun deadline hother => ?_, fun outcome limit hother => ?_, fun hs' => ?_⟩
    · rw [hphase] at hother
      cases hother
    · rw [hphase] at hother
      cases hother
    · rw [hdown] at hs'
      cases hs'

theorem shuttingDown (h : Effect s s') (hdown : s.shuttingDown = true) : s'.shuttingDown = true := by
  cases hopen : s'.shuttingDown with
  | true => rfl
  | false =>
    rw [h.accepting hopen] at hdown
    cases hdown

/-- Whoever has to stop by a moment has to after every step. -/
theorem stopsBy (h : Effect s s') {id : String} {stop : Nat}
    (hold : s.shuttingDown = true ∨ s.registry.find? id ≠ none) (hs : s.StopsBy id stop) :
    s'.StopsBy id stop := by
  intro w' hw'
  rcases h.worker_moves hw' with ⟨w, hw, hmoves⟩ | ⟨hnone, -, hdown, -⟩
  · exact hmoves.stopsBy h.settings_eq (hs w hw)
  · rcases hold with hdown' | hsome
    · rw [hdown] at hdown'
      cases hdown'
    · exact absurd hnone hsome

end Effect

/-- What holds of the workers in every state of a run. -/
structure State.Orderly (s : State) : Prop where
  coherent : s.Coherent
  distinct : s.OneWorkerEach
  timely : s.Timely
  leases : s.LeasesAttended

namespace State

theorem orderly_initial (settings : Settings) (inventory : Inventory) (registry : Registry) :
    (initial settings inventory registry).Orderly where
  coherent := coherent_initial settings inventory registry
  distinct := List.nodup_nil
  timely := timely_initial settings inventory registry
  leases := leasesAttended_initial settings inventory registry

theorem Orderly.step {s s' : State} (h : Effect s s') (hs : s.Orderly) : s'.Orderly where
  coherent := h.coherent hs.coherent
  distinct := h.oneWorkerEach hs.coherent hs.distinct
  timely := h.timely hs.timely
  leases := h.leasesAttended hs.coherent hs.leases

theorem Orderly.run {s : State} (hs : s.Orderly) (events : List Event) : (s.run events).Orderly :=
  run_preserves Orderly.step hs events

/-- Whoever has to stop by a moment has to throughout a run, if no task comes under its identifier. -/
theorem Orderly.stopsBy_run {s : State} (hs : s.Orderly) {id : String} {stop : Nat}
    (hold : s.shuttingDown = true ∨ s.registry.find? id ≠ none) (h : s.StopsBy id stop)
    (events : List Event) : (s.run events).StopsBy id stop := by
  have hstep : ∀ {r r' : State}, Effect r r' →
      (r.Coherent ∧ (r.shuttingDown = true ∨ r.registry.find? id ≠ none) ∧ r.StopsBy id stop) →
      r'.Coherent ∧ (r'.shuttingDown = true ∨ r'.registry.find? id ≠ none) ∧
        r'.StopsBy id stop := by
    rintro r r' heffect ⟨hr, hold, hstops⟩
    refine ⟨heffect.coherent hr, hold.imp heffect.shuttingDown fun hregistered => ?_,
      heffect.stopsBy hold hstops⟩
    obtain ⟨e, he⟩ := Option.ne_none_iff_exists'.mp hregistered
    obtain ⟨e', he', -⟩ := heffect.task_follows hr he
    simp [he']
  exact (run_preserves hstep ⟨hs.coherent, hold, h⟩ events).2.2

/-- A worker that was told to stop has to do so from now on. -/
theorem Orderly.stopsBy_of_cancelled {s : State} (hs : s.Orderly) {id : String}
    (h : ∀ w, s.worker? id = some w → w.cancelled = true) : s.StopsBy id s.clock :=
  fun w hw => (hs.timely hw).stopsBy (h w hw)

theorem Orderly.attended_run {s : State} (hs : s.Orderly) {id : String} {e : Registry.Entry}
    (he : s.registry.find? id = some e) (h : s.Attended id) (events : List Event) :
    (s.run events).Attended id := by
  have hstep : ∀ {r r' : State}, Effect r r' →
      (r.Coherent ∧ (∃ e, r.registry.find? id = some e) ∧ r.Attended id) →
      r'.Coherent ∧ (∃ e, r'.registry.find? id = some e) ∧ r'.Attended id := by
    rintro r r' heffect ⟨hr, ⟨e, he⟩, hattended⟩
    obtain ⟨e', he', -⟩ := heffect.task_follows hr he
    exact ⟨heffect.coherent hr, ⟨e', he'⟩, heffect.attended hr he hattended⟩
  exact (run_preserves hstep ⟨hs.coherent, ⟨e, he⟩, h⟩ events).2.2

theorem settings_run (s : State) (events : List Event) : (s.run events).settings = s.settings :=
  run_preserves (P := fun r => r.settings = s.settings) (fun h hr => h.settings_eq.trans hr) rfl
    events

end State

end FirewallRollout.Rebuild
