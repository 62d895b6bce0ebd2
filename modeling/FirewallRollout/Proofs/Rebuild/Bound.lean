import FirewallRollout.Proofs.Rebuild.Elapse

/-!
# The bound of a rebuild

A call of the executor is told to stop when its budget ends, when its task is cancelled or when a
shutdown begins, whichever comes first. A grace period later nothing of the rebuild goes on, even if
the executor never returns.
-/
namespace FirewallRollout.Rebuild

namespace State

/-- The moments at which the call of a task is told to stop, in a run that goes on from its beginning. -/
inductive StopMoment (s : State) (id : String) (after : List Event) : Nat → Prop
  | budget {t : Task} (task : s.registry.get id = .ok t) : StopMoment s id after (s.clock + s.budgetMs t)
  | cancelled {before later : List Event} {now : Int64} {t : Task}
      (split : after = before ++ .cancel id now :: later)
      (accepted : ((s.run before).cancel id now).1 = .ok t) :
      StopMoment s id after (s.run before).clock
  | shutDown {before later : List Event} (split : after = before ++ .shutDown :: later) :
      StopMoment s id after (s.run before).clock
  /-- A shutdown has begun before the call. -/
  | late (down : s.shuttingDown = true) : StopMoment s id after s.clock

/-- Nothing of a rebuild goes on. -/
structure Over (s : State) (id : String) : Prop where
  ended : ∃ t, s.registry.get id = .ok t ∧ t.isTerminal = true
  worker : s.worker? id = none
  token : s.tokens.lookup id = none
  lease : ∀ server, s.leases.lookup server ≠ some id
  /-- Its executor has no say any more. -/
  silent : ∀ n result, s.step (.report id n) = s ∧ s.step (.finish id result) = s ∧
    s.step (.revoke id) = s

/-- A task whose worker is gone has ended, and it has let go of everything. -/
theorem Orderly.over {s : State} (hs : s.Orderly) {id : String} {e : Registry.Entry}
    (he : s.registry.find? id = some e) (hattended : s.Attended id) (hgone : s.worker? id = none) :
    s.Over id where
  ended := by
    rcases hattended with hended | ⟨w, hw⟩
    · rw [hasEnded, he] at hended
      exact ⟨e.task, Registry.get_eq_ok_iff.mpr ⟨e, he, rfl⟩, hended⟩
    · rw [hgone] at hw
      cases hw
  worker := hgone
  token := by rw [lookup_tokens, hgone, Option.map_none]
  lease server hlease := by
    obtain ⟨w, hw, -⟩ := hs.leases hlease
    rw [hgone] at hw
    cases hw
  silent n result := by
    have hnone : s.workerIn? id isCalling = none := by rw [workerIn?, hgone]; rfl
    refine ⟨?_, ?_, ?_⟩
    · rw [State.step, report, hnone]
    · rw [State.step, finish, hgone]
    · rw [State.step, revoke, hnone]

/-- A step that begins a call, and how long it gives it. -/
theorem start_called {s : State} {id : String} (h : (s.start id).calls ≠ s.calls) :
    ∃ w, (s.start id).worker? id = some w ∧ w.phase = .executing (s.clock + s.budgetMs w.task) ∧
      (s.start id).clock = s.clock := by
  rcases s.start_cases id with ⟨hsame, -⟩ | ⟨w, s₁, phase, hw, -, hs₁, hworkers, hclock, hcalls⟩
  · exact absurd (congrArg State.calls hsame) h
  rcases hcalls with ⟨hsame, -⟩ | ⟨-, rfl⟩
  · exact absurd ((congrArg State.calls hs₁).trans hsame) h
  · have hw₁ : s₁.worker? id = some w := by rw [← hw, worker?, worker?, hworkers]
    rw [hs₁]
    exact ⟨_, worker?_withWorker_self hw₁ fun _ => rfl, rfl, hclock⟩

/-- However a call is told to stop, its worker stops by that moment. -/
theorem Orderly.stopsBy_of_stopMoment {s : State} (hs : s.Orderly) {id : String} {w : Worker}
    (hw : s.worker? id = some w) (hphase : w.phase = .executing (s.clock + s.budgetMs w.task))
    {after : List Event} {stop : Nat} (h : StopMoment s id after stop) :
    (s.run after).StopsBy id stop := by
  have hregistered := hs.coherent.registered_of_worker? hw
  -- after a step that cancels the worker, which comes somewhere in the run
  have htold : ∀ {before later : List Event} (e : Event), after = before ++ e :: later →
      ((s.run before).step e).clock = (s.run before).clock →
      (∀ v, ((s.run before).step e).worker? id = some v → v.cancelled = true) →
      (s.run after).StopsBy id (s.run before).clock := by
    intro before later e hsplit hclock hcancelled
    have hbefore := hs.run before
    have hstops := (hbefore.run [e]).stopsBy_of_cancelled hcancelled
    rw [hsplit, run_append]
    refine (hbefore.run [e]).stopsBy_run (.inr ?_) (hclock ▸ hstops) later
    have hkept := hs.coherent.registered_run hregistered (before ++ [e])
    rwa [run_append] at hkept
  cases h with
  | @budget t task =>
    refine hs.stopsBy_run (.inr hregistered) (fun v hv => ?_) after
    obtain rfl := Option.some.inj (hw.symm.trans hv)
    obtain ⟨e, he, rfl⟩ := Registry.get_eq_ok_iff.mp task
    obtain ⟨e', he', hsame, -⟩ := (hs.coherent.fits hw).registered
    rw [id_of_worker? hw] at he'
    obtain rfl := Option.some.inj (he.symm.trans he')
    have hbudget : s.budgetMs e.task = s.budgetMs w.task := by
      rw [budgetMs, hsame.2.2.1, budgetMs]
    simp only [Worker.StopsBy, hphase, hbudget]
    exact ⟨.inr (Nat.le_refl _), Nat.le_add_right _ _⟩
  | @cancelled before later now t split accepted =>
    have hcancel : (s.run before).cancel id now = (.ok t, (s.run before).step (.cancel id now)) :=
      Prod.ext accepted rfl
    obtain ⟨e, -, -, -, hstep⟩ := cancel_ok hcancel
    refine htold (.cancel id now) split (by rw [hstep]; rfl) fun v hv => ?_
    rw [hstep, worker?_withWorker _ _ (fun w => { w with cancelled := true }) fun _ => rfl,
      if_pos rfl] at hv
    obtain ⟨u, -, rfl⟩ := Option.map_eq_some_iff.mp hv
    rfl
  | shutDown split =>
    refine htold .shutDown split rfl fun v hv => ?_
    obtain ⟨u, -, rfl⟩ := Option.map_eq_some_iff.mp ((worker?_shutDown _ id).symm.trans hv)
    rfl
  | late down =>
    exact hs.stopsBy_run (.inr hregistered) (hs.stopsBy_of_cancelled fun v hv => (hs.timely hv).stopped down)
      after

/-- Whatever the executor does, and whoever asks for what meanwhile: once the clock has passed the
grace period after a moment at which a call was told to stop, nothing of its rebuild goes on. The
clock does pass it, since with every executor it reaches every later moment. -/
theorem rebuild_over (settings : Settings) (inventory : Inventory) (registry : Registry)
    (before after : List Event) {s r : State} (hs : s = (initial settings inventory registry).run before)
    {id : String} (hbegins : (s.step (.start id)).calls ≠ s.calls)
    (hr : r = (s.step (.start id)).run after) :
    (∀ stop, StopMoment (s.step (.start id)) id after stop →
      stop + 1000 * settings.cancelGrace.toNat < r.clock → r.Over id) ∧
    ∀ sim : Simulation, sim.state = r → ∀ now ms,
      r.LeadsTo (sim.advance now ms).state ∧ (sim.advance now ms).state.clock = r.clock + ms := by
  have horderly : s.Orderly := hs ▸ (orderly_initial settings inventory registry).run before
  have hstarted : (s.step (.start id)).Orderly := horderly.run [.start id]
  have hend : r.Orderly := hr ▸ hstarted.run after
  refine ⟨fun stop hstop hlate => ?_, fun sim hsim now ms => ?_⟩
  · obtain ⟨w, hw, hphase, hclock⟩ := start_called hbegins
    obtain ⟨e, he⟩ := Option.ne_none_iff_exists'.mp (hstarted.coherent.registered_of_worker? hw)
    have hsettings : (s.step (.start id)).settings = s.settings := s.settings_run [.start id]
    have hphase' : w.phase = .executing ((s.step (.start id)).clock +
        (s.step (.start id)).budgetMs w.task) := by
      rw [hphase, budgetMs, budgetMs, hsettings]
      exact congrArg (fun clock => Phase.executing (clock + _)) hclock.symm
    have hgrace : r.graceMs = 1000 * settings.cancelGrace.toNat := by
      rw [graceMs, hr, settings_run, hsettings, hs, settings_run]
      rfl
    have hstops := hstarted.stopsBy_of_stopMoment hw hphase' hstop
    obtain ⟨e', he'⟩ := Option.ne_none_iff_exists'.mp
      (hstarted.coherent.registered_run (hstarted.coherent.registered_of_worker? hw) after)
    have hattended := hstarted.attended_run he (.inr ⟨w, hw⟩) after
    rw [← hr] at hstops he' hattended
    exact hend.over he' hattended (hstops.worker?_eq_none (by rw [hgrace]; exact hlate))
  · subst hsim
    exact Simulation.clock_advance now hend ms

/-- An executor that takes no notice of a cancellation. -/
theorem rebuild_over_deaf :
    let s := (initial { cancelGrace := 1 } { shelves := [("web", [])] } {}).run
      [.trigger "web" false "a" 0]
    let after : List Event := [.pass 300, .cancel "a" 7, .notice "a", .pass 1000, .abandon "a",
      .settle "a" 8, .release "a", .pass 1]
    let r := (s.step (.start "a")).run after
    (s.step (.start "a")).calls ≠ s.calls ∧ StopMoment (s.step (.start "a")) "a" after 300 ∧
      300 + 1000 < r.clock ∧ r.Over "a" := by
  intro s after r
  have hbegins : (s.step (.start "a")).calls ≠ s.calls := by decide +kernel
  have hclock : ((s.step (.start "a")).run [.pass 300]).clock = 300 := by decide +kernel
  have hcancel : (((s.step (.start "a")).run [.pass 300]).cancel "a" 7).1 = .ok
      { Task.create "a" "web" 0 false 0 with
        status := .failed, errorMessage := some Task.cancelledMessage, completedAt := some 7 } := by
    decide +kernel
  have hstop : StopMoment (s.step (.start "a")) "a" after 300 := by
    rw [← hclock]
    exact .cancelled rfl hcancel
  have hlate : 300 + 1000 < r.clock := by decide +kernel
  have hover := (rebuild_over { cancelGrace := 1 } { shelves := [("web", [])] } {}
    [.trigger "web" false "a" 0] after (s := s) rfl hbegins rfl).1 300 hstop hlate
  exact ⟨hbegins, hstop, hlate, hover⟩

end State

end FirewallRollout.Rebuild
