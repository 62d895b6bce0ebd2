import FirewallRollout.Proofs.Rebuild.Masking

/-!
# Failed flushes that are masked

While a fingerprint of a server is remembered, or some worker of it may bring one back, there is a
run on from here in which a new rebuild is skipped. So a failed flush is masked exactly when this is
so and no later call has returned well.
-/
namespace FirewallRollout.Rebuild
namespace State
variable {s : State} {server : String} {k : Nat}

theorem start_of_unchanged {w : Worker} {e : Registry.Entry} (found : s.worker? w.task.id = some w)
    (phase : w.phase = .queued) (entry : s.registry.find? w.task.id = some e)
    (pending : e.task.status = .pending) (unchanged : w.unchanged = true) :
    s.start w.task.id = withWorker
      { s with registry := s.registry.amend e { e.task with status := .running } }
      w.task.id fun w => { w with phase := .settling .applied } := by
  have hworker : s.workerIn? w.task.id (· == .queued) = some w :=
    workerIn?_eq_some_iff.mpr ⟨found, by simp [phase]⟩
  have htask : s.withTask? w.task.id Task.start =
      some { s with registry := s.registry.amend e { e.task with status := .running } } :=
    withTask?_eq_some_iff.mpr ⟨e, _, entry, by simp [Task.start, pending], rfl⟩
  simp only [start_eq, hworker, htask, unchanged, if_true]
  rfl

theorem finish_of_executing {w : Worker} {deadline : Nat} (found : s.worker? w.task.id = some w)
    (phase : w.phase = .executing deadline) (result : Executor.Result) :
    s.finish w.task.id result = withWorker (s.withResult w.task.id result) w.task.id
      fun v => { v with phase := .settling (outcomeOf w result) } := by
  simp only [finish, found, phase]
  rfl

theorem settle_of_applied {w : Worker} {e : Registry.Entry} {t : Task} {now : Int64}
    (found : s.worker? w.task.id = some w) (phase : w.phase = .settling .applied)
    (entry : s.registry.find? w.task.id = some e) (succeeded : e.task.succeed now = (.ok (), t)) :
    s.settle w.task.id now = withWorker
      { s with
        registry := s.registry.amend e t
        fingerprints := Assoc.put s.fingerprints w.task.server w.script.fingerprint }
      w.task.id fun w => { w with phase := .releasing } := by
  obtain ⟨task, script, unchanged, cancelled, p⟩ := w
  obtain rfl : p = .settling .applied := phase
  have htask : s.withTask? task.id (fun t => s.settleTask t .applied now) =
      some { s with registry := s.registry.amend e t } :=
    withTask?_eq_some_iff.mpr ⟨e, t, entry, succeeded, rfl⟩
  simp only [settle_eq, found, htask, if_true]
  rfl

theorem MasksFailure.of_run (events : List Event) (h : (s.run events).MasksFailure server k) :
    s.MasksFailure server k := by
  obtain ⟨before, after, h⟩ := h
  have hrun : (s.run events).run before = s.run (events ++ before) := by
    simp [run, List.foldl_append]
  rw [hrun] at h
  exact ⟨events ++ before, after, h⟩

theorem appliedSince_congr {s s' : State} (h : s'.calls = s.calls) :
    s'.AppliedSince server k ↔ s.AppliedSince server k := by
  rw [AppliedSince, AppliedSince, h]

/-- New rebuilds are accepted beside those in flight. -/
structure Accepting (s : State) : Prop where
  concurrent : s.settings.allowConcurrent = true
  accepting : s.shuttingDown = false
  writable : s.registry.isWritable = true

theorem Accepting.step {s' : State} (hs : s.Accepting) (h : Effect s s')
    (hsame : s'.shuttingDown = s.shuttingDown) : s'.Accepting :=
  ⟨by rw [h.settings_eq, hs.concurrent], by rw [hsame, hs.accepting],
    by rw [h.isWritable_eq, hs.writable]⟩

/-- A live worker that skips its call settles success when it starts. -/
theorem Coherent.live_start (hs : s.Coherent) {w : Worker} (hlive : s.Live w.task.id w)
    (phase : w.phase = .queued) (unchanged : w.unchanged = true) :
    (s.step (.start w.task.id)).Live w.task.id { w with phase := .settling .applied } ∧
      (s.step (.start w.task.id)).calls = s.calls ∧
      (s.Accepting → (s.step (.start w.task.id)).Accepting) := by
  obtain ⟨e, entry, active⟩ := hasEnded_eq_false_iff.mp hlive.2
  obtain ⟨e', entry', -, hadmits⟩ := (hs.fits hlive.1).registered
  obtain rfl := Option.some.inj (entry.symm.trans entry')
  have pending : e.task.status = .pending := by
    rw [phase] at hadmits
    rcases Task.isTerminal_eq_false_iff.mp active with hp | hp
    · exact hp
    · simp [hp, Phase.admits] at hadmits
  have hstart := start_of_unchanged hlive.1 phase entry pending unchanged
  have heffect := s.step_effect (.start w.task.id)
  rw [step, hstart] at heffect ⊢
  refine ⟨⟨?_, ?_⟩, rfl, fun haccepting => haccepting.step heffect rfl⟩
  · exact worker?_withWorker_self hlive.1 fun _ => rfl
  · refine hasEnded_eq_false_iff.mpr ⟨{ e with task := { e.task with status := .running } }, ?_, rfl⟩
    exact (Registry.find?_amend (t := { e.task with status := .running }) entry rfl _).trans
      (if_pos rfl)

/-- A live worker whose call returns well settles success. -/
theorem live_finish {w : Worker} {deadline : Nat} (hlive : s.Live w.task.id w)
    (phase : w.phase = .executing deadline) :
    (s.step (.finish w.task.id (.ok ()))).Live w.task.id { w with phase := .settling .applied } ∧
      (s.step (.finish w.task.id (.ok ()))).calls = (s.withResult w.task.id (.ok ())).calls ∧
      (s.Accepting → (s.step (.finish w.task.id (.ok ()))).Accepting) := by
  have hfinish := finish_of_executing hlive.1 phase (.ok ())
  have heffect := s.step_effect (.finish w.task.id (.ok ()))
  rw [step, hfinish] at heffect ⊢
  exact ⟨⟨worker?_withWorker_self hlive.1 fun _ => rfl, hlive.2⟩, rfl,
    fun haccepting => haccepting.step heffect rfl⟩

/-- A live worker that settles success makes its task one, and its commands are remembered. -/
theorem success_of_settle {w : Worker} (hlive : s.Live w.task.id w)
    (phase : w.phase = .settling .applied) (now : Int64) :
    (∃ u, (s.step (.settle w.task.id now)).registry.get w.task.id = .ok u ∧ u.status = .success) ∧
      (s.step (.settle w.task.id now)).fingerprints.lookup w.task.server =
        some w.script.fingerprint ∧
      (s.step (.settle w.task.id now)).calls = s.calls ∧
      (s.Accepting → (s.step (.settle w.task.id now)).Accepting) := by
  obtain ⟨e, entry, active⟩ := hasEnded_eq_false_iff.mp hlive.2
  obtain ⟨u, succeeded, hsuccess, hid⟩ := Task.exists_succeed active now
  have hsettle := settle_of_applied hlive.1 phase entry succeeded
  have heffect := s.step_effect (.settle w.task.id now)
  rw [step, hsettle] at heffect ⊢
  refine ⟨⟨u, Registry.get_eq_ok_iff.mpr ⟨{ e with task := u }, ?_, rfl⟩, hsuccess⟩, ?_, rfl,
    fun haccepting => haccepting.step heffect rfl⟩
  · exact (Registry.find?_amend entry hid _).trans (if_pos rfl)
  · exact (Assoc.lookup_put _ _ _ _).trans (if_pos rfl)

/-- While a fingerprint is remembered, a new rebuild may find it and be skipped. -/
theorem Coherent.masks_of_remembered (hs : s.Coherent) (haccepting : s.Accepting)
    {script : Script} (hscripted : Scripted server script)
    (hremembered : s.fingerprints.lookup server = some script.fingerprint)
    (hsince : ¬ s.AppliedSince server k) : s.MasksFailure server k := by
  obtain ⟨inventory, total, hscript, hcount⟩ := id hscripted
  obtain ⟨id, hid⟩ := s.registry.exists_free
  -- the rules become those of the script, and then a rebuild is asked for
  have hedit := (s.step_effect (.edit inventory)).coherent hs
  have hfree : (s.step (.edit inventory)).holder? server = none := by
    simp [holder?, step, haccepting.concurrent]
  have htrigger : ((s.step (.edit inventory)).trigger server false id 0).1 =
      .ok (.create id server total false 0) :=
    trigger_accepts (s := s.step (.edit inventory)) haccepting.accepting hscript hcount hfree
      haccepting.writable hid false 0
  obtain ⟨-, hentry⟩ := find?_of_trigger htrigger
  obtain ⟨script', hscript', hworker⟩ := hedit.worker?_of_trigger htrigger
  obtain rfl : script = script' := Except.ok.inj (hscript.symm.trans hscript')
  have hnew := ((s.step (.edit inventory)).step_effect (.trigger server false id 0)).coherent hedit
  have hcalls : ((s.step (.edit inventory)).step (.trigger server false id 0)).calls = s.calls := by
    obtain ⟨_, _, _, -, -, -, -, -, -, hs'⟩ := trigger_ok (Prod.ext htrigger rfl)
    have hsame := congrArg State.calls hs'
    exact hsame
  have hunchanged : (!false && (s.step (.edit inventory)).isUnchanged script) = true := by
    simpa [isUnchanged, step, hscripted.server_eq] using hremembered
  rw [hunchanged] at hworker
  -- the new worker finds its commands in force and skips its call
  let w : Worker := { task := .create id server total false 0, script, unchanged := true }
  have hlive : Live _ w.task.id w := ⟨hworker, hasEnded_eq_false_iff.mpr ⟨_, hentry, rfl⟩⟩
  obtain ⟨hstarted, hstart, -⟩ := hnew.live_start hlive rfl rfl
  obtain ⟨⟨u, hget, hsuccess⟩, -, hsettle, -⟩ :=
    success_of_settle (w := { w with phase := .settling .applied }) hstarted rfl 0
  have hsame := (hsettle.trans hstart).trans hcalls
  refine ⟨[.edit inventory], [.start id, .settle id 0], id, false, 0, _, u, htrigger, hget, hsuccess,
    ?_, ?_⟩
  · exact (callsOf_congr hsame id).trans (hs.uncalled hid)
  · exact fun h => hsince ((appliedSince_congr hsame).mp h)

/-- A live worker that settles success leads to this. -/
theorem Coherent.masks_of_settling (hs : s.Coherent) (haccepting : s.Accepting) {w : Worker}
    (hlive : s.Live w.task.id w) (phase : w.phase = .settling .applied)
    (hsince : ¬ s.AppliedSince w.task.server k) : s.MasksFailure w.task.server k := by
  obtain ⟨-, hremembered, hcalls, haccepting'⟩ := success_of_settle hlive phase 0
  apply MasksFailure.of_run [.settle w.task.id 0]
  refine ((s.step_effect (.settle w.task.id 0)).coherent hs).masks_of_remembered
    (haccepting' haccepting) (hs.fits hlive.1).scripted hremembered ?_
  exact fun h => hsince ((appliedSince_congr hcalls).mp h)

/-- The result of a call that began early is none of a later call. -/
theorem appliedSince_of_withResult {id : String} {result : Executor.Result} {c : Call}
    (hown : s.callsOf id = [c]) (hearly : ∃ (i : Nat) (c : Call), i ≤ k ∧ s.calls[i]? = some c ∧
      c.plan.task = id) (h : (s.withResult id result).AppliedSince server k) :
    s.AppliedSince server k := by
  obtain ⟨i, d, hi, hd, hid⟩ := hearly
  obtain ⟨j, c', hj, hc', hserver, hok⟩ := h
  simp only [withResult, List.getElem?_map, Option.map_eq_some_iff] at hc'
  obtain ⟨c₀, hc₀, rfl⟩ := hc'
  have hother : c₀.plan.task ≠ id := by
    intro hid'
    have hij : i = j := Keyed.eq_of_filter_eq_singleton hown hd (by simpa using hid) hc₀
      (by simpa using hid')
    omega
  rw [if_neg (by simpa using hother)] at hserver hok
  exact ⟨j, c₀, hj, hc₀, hserver, hok⟩

/-- So does a worker that restores a fingerprint. -/
theorem Coherent.masks_of_restores (hs : s.Coherent) (haccepting : s.Accepting) {id : String}
    {w : Worker} (hrestores : s.Restores server k id w) (hsince : ¬ s.AppliedSince server k) :
    s.MasksFailure server k := by
  have hphase := hs.phase_of_restores hrestores
  obtain ⟨hlive, rfl, -⟩ := hrestores
  obtain rfl := hlive.id_eq
  rcases hphase with ⟨hqueued, hun⟩ | ⟨⟨deadline, hexecuting⟩, hearly⟩ | hsettling
  · obtain ⟨hstarted, hcalls, haccepting'⟩ := hs.live_start hlive hqueued hun
    apply MasksFailure.of_run [.start w.task.id]
    refine ((s.step_effect (.start w.task.id)).coherent hs).masks_of_settling
      (haccepting' haccepting) (w := { w with phase := .settling .applied }) hstarted rfl ?_
    exact fun h => hsince ((appliedSince_congr hcalls).mp h)
  · obtain ⟨hreturned, hcalls, haccepting'⟩ := live_finish hlive hexecuting
    have hown := (hs.callsOf_calling hlive.1 (isCalling_iff.mpr (.inl ⟨_, hexecuting⟩))).2
    apply MasksFailure.of_run [.finish w.task.id (.ok ())]
    refine ((s.step_effect (.finish w.task.id (.ok ()))).coherent hs).masks_of_settling
      (haccepting' haccepting) (w := { w with phase := .settling .applied }) hreturned rfl ?_
    exact fun h => hsince
      (appliedSince_of_withResult hown hearly ((appliedSince_congr hcalls).mp h))
  · exact hs.masks_of_settling haccepting hlive hsettling hsince

/-- Fingerprints are remembered for scripts that some rules give. -/
def Remembers (s : State) : Prop :=
  ∀ {server f}, s.fingerprints.lookup server = some f →
    ∃ script, Scripted server script ∧ script.fingerprint = f

theorem remembers_initial (settings : Settings) (inventory : Inventory) (registry : Registry) :
    (initial settings inventory registry).Remembers := by
  intro server f hf
  cases hf

end State

theorem Effect.remembers {s s' : State} (h : Effect s s') (hs : s.Coherent)
    (hremembers : s.Remembers) : s'.Remembers := by
  intro server f hf
  cases h with
  | called deadline found phase entry pending unchanged =>
    have hf' := (Assoc.lookup_erase _ _ _).symm.trans hf
    split at hf'
    · cases hf'
    · exact hremembers hf'
  | @settled w outcome e t now found phase entry recorded =>
    change (if outcome = .applied then Assoc.put s.fingerprints w.task.server w.script.fingerprint
      else s.fingerprints).lookup server = some f at hf
    split at hf
    · rw [Assoc.lookup_put] at hf
      split at hf
      · next hserver =>
        rw [hserver]
        exact ⟨w.script, (hs.fits found).scripted, Option.some.inj hf⟩
      · exact hremembers hf
    · exact hremembers hf
  | _ => exact hremembers hf

namespace State

/-- The `k`-th call of all was for the server, and its task has ended with failure. -/
def FailedFlush (s : State) (server : String) (k : Nat) : Prop :=
  ∃ (c : Call) (t : Task), s.calls[k]? = some c ∧ c.plan.server = server ∧
    s.registry.get c.plan.task = .ok t ∧ t.status = .failed

/-- With concurrent rebuilds, a failed flush may be masked by a rebuild that is triggered later
exactly when no later call has returned well and a fingerprint is remembered, or may come to be by a
worker whose own call did not begin later. -/
theorem failed_flush_masked_iff (settings : Settings) (inventory : Inventory) (registry : Registry)
    (hconcurrent : settings.allowConcurrent = true) (events : List Event) {s : State}
    (hs : s = (initial settings inventory registry).run events) {server : String} {k : Nat}
    (hfailed : s.FailedFlush server k) :
    s.MasksFailure server k ↔ ¬ s.AppliedSince server k ∧ s.MayMask server k := by
  have hinvariant : s.Coherent ∧ s.Remembers ∧ s.settings = settings := by
    rw [hs]
    refine run_preserves (P := fun r => r.Coherent ∧ r.Remembers ∧ r.settings = settings)
      (fun h hr => ⟨h.coherent hr.1, h.remembers hr.1 hr.2.1, by rw [h.settings_eq, hr.2.2]⟩)
      ⟨coherent_initial settings inventory registry,
        remembers_initial settings inventory registry, rfl⟩ events
  obtain ⟨hcoherent, hremembers, hsettings⟩ := hinvariant
  obtain ⟨c, -, hc, -⟩ := hfailed
  constructor
  · intro hmasks
    exact ⟨hmasks.not_appliedSince hcoherent,
      hcoherent.mayMask_of_masksFailure (List.getElem?_eq_some_iff.mp hc).1 hmasks⟩
  · rintro ⟨hsince, hopen, hwritable, hfingerprint | ⟨id, w, hrestores⟩⟩
    · obtain ⟨f, hf⟩ := Option.isSome_iff_exists.mp hfingerprint
      obtain ⟨script, hscripted, rfl⟩ := hremembers hf
      exact hcoherent.masks_of_remembered ⟨by rw [hsettings, hconcurrent], hopen, hwritable⟩
        hscripted hf hsince
    · exact hcoherent.masks_of_restores ⟨by rw [hsettings, hconcurrent], hopen, hwritable⟩
        hrestores hsince

/-- A call that began before the failed one may still return well, and a later rebuild is skipped. -/
theorem failed_flush_masked :
    let s := (initial { allowConcurrent := true } { shelves := [("web", [])] } {}).run
      [.trigger "web" false "a" 0, .trigger "web" false "b" 0, .start "a", .start "b",
        .finish "b" (.error ⟨0, 1, "flush refused"⟩), .settle "b" 1]
    s.FailedFlush "web" 1 ∧ s.MasksFailure "web" 1 := by
  intro s
  let early : Call := { plan := ⟨"a", "web", Script.flushes, []⟩ }
  let late : Call :=
    { plan := ⟨"b", "web", Script.flushes, []⟩, result := some (.error ⟨0, 1, "flush refused"⟩) }
  have hcalls : s.calls = [early, late] := by decide +kernel
  have htask : (s.registry.get "b").map Task.status = .ok .failed := by decide +kernel
  have hfailed : s.FailedFlush "web" 1 := by
    cases hget : s.registry.get "b" with
    | error fault =>
      rw [hget] at htask
      cases htask
    | ok t =>
      rw [hget] at htask
      exact ⟨late, t, by rw [hcalls]; rfl, rfl, hget, Except.ok.inj htask⟩
  refine ⟨hfailed, (failed_flush_masked_iff _ _ _ rfl _ rfl hfailed).mpr ⟨?_, ?_, ?_, .inr ?_⟩⟩
  · rintro ⟨i, c, hi, hc, -⟩
    rw [hcalls, List.getElem?_eq_none hi] at hc
    cases hc
  · decide +kernel
  · decide +kernel
  · have hworker : s.worker? "a" = some
        { task := .create "a" "web" 0 false 0, script := ⟨"web", .plain, true, []⟩,
          unchanged := false, phase := .executing 30000 } := by decide +kernel
    have hactive : s.hasEnded "a" = false := by decide +kernel
    exact ⟨"a", _, ⟨hworker, hactive⟩, rfl, .inr ⟨rfl, 0, early, by decide, by rw [hcalls]; rfl, rfl⟩⟩

end State
end FirewallRollout.Rebuild
