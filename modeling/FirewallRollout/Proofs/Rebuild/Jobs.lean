import FirewallRollout.Proofs.Rebuild.TaskLife

/-!
# What a worker was given

The task, the script and the decision to skip the call are fixed when a task is triggered. A worker
keeps them through every phase, and it is live as long as its task has not ended. Its phases come in
a fixed order.
-/
namespace FirewallRollout.Rebuild

/-- One move of a worker from phase to phase, or none. -/
inductive Phase.Next : Phase → Phase → Prop
  | stay (p : Phase) : Next p p
  | refuse : Next .queued .releasing
  | skip : Next .queued (.settling .applied)
  | call (deadline : Nat) : Next .queued (.executing deadline)
  | finish (deadline : Nat) (outcome : Outcome) : Next (.executing deadline) (.settling outcome)
  | wind (deadline : Nat) {outcome : Outcome} (limit : Nat) (given_up : outcome ≠ .applied) :
    Next (.executing deadline) (.winding outcome limit)
  | stop (outcome : Outcome) (limit : Nat) : Next (.winding outcome limit) (.settling outcome)
  | settle (outcome : Outcome) : Next (.settling outcome) .releasing

/-- Two workers, or one at two times, with the same things given to them. -/
structure Worker.SameJob (w w' : Worker) : Prop where
  task : w'.task = w.task
  script : w'.script = w.script
  unchanged : w'.unchanged = w.unchanged

namespace Worker

theorem SameJob.refl (w : Worker) : w.SameJob w := ⟨rfl, rfl, rfl⟩

theorem SameJob.trans {v w x : Worker} (h : v.SameJob w) (h' : w.SameJob x) : v.SameJob x :=
  ⟨h'.task.trans h.task, h'.script.trans h.script, h'.unchanged.trans h.unchanged⟩

/-- A worker before and after one step. -/
structure Continues (w w' : Worker) : Prop extends SameJob w w' where
  phase : w.phase.Next w'.phase

theorem Continues.refl (w : Worker) : w.Continues w := ⟨.refl w, .stay _⟩

end Worker

namespace State

/-- The worker of a task that has not ended. -/
def Live (s : State) (id : String) (w : Worker) : Prop :=
  s.worker? id = some w ∧ s.hasEnded id = false

/-- A worker that may join, with the task and the decision it is given. -/
structure Admits (s : State) (id : String) (w : Worker) : Prop where
  free : s.registry.find? id = none
  phase : w.phase = .queued
  scripted : Scripted w.task.server w.script
  unchanged : w.unchanged = true → s.isUnchanged w.script = true

theorem live_of_entry {s : State} {id : String} {w : Worker} {e : Registry.Entry}
    (found : s.worker? id = some w) (entry : s.registry.find? id = some e)
    (active : e.task.isTerminal = false) : s.Live id w :=
  ⟨found, hasEnded_eq_false_iff.mpr ⟨e, entry, active⟩⟩

theorem Live.id_eq {s : State} {id : String} {w : Worker} (h : s.Live id w) : w.task.id = id :=
  id_of_worker? h.1

theorem Coherent.registered_of_worker? {s : State} (hs : s.Coherent) {id : String} {w : Worker}
    (hw : s.worker? id = some w) : s.registry.find? id ≠ none := by
  obtain ⟨e, he, -⟩ := (hs.fits hw).registered
  rw [id_of_worker? hw] at he
  simp [he]

/-- When one worker takes a step, every worker does or stays as it is. -/
theorem continues_of_withWorker {s : State} {id id' : String} {change : Worker → Worker}
    {w' : Worker} (h : (s.withWorker id change).worker? id' = some w')
    (hkeep : ∀ w, (change w).task = w.task)
    (hchange : ∀ w, s.worker? id = some w → w.Continues (change w)) :
    ∃ w, s.worker? id' = some w ∧ w.Continues w' := by
  rw [worker?_withWorker _ _ _ hkeep] at h
  split at h
  · next hid =>
    obtain ⟨w, hw, rfl⟩ := Option.map_eq_some_iff.mp h
    exact ⟨w, by rw [hid, hw], hchange w hw⟩
  · exact ⟨w', h, .refl w'⟩

/-- The step of a worker that was found. -/
theorem continues_of_found {s : State} {w w' : Worker} {id : String} {change : Worker → Worker}
    (found : s.worker? w.task.id = some w)
    (h : (s.withWorker w.task.id change).worker? id = some w')
    (hkeep : ∀ w : Worker, w.SameJob (change w)) (hphase : w.phase.Next (change w).phase) :
    ∃ w, s.worker? id = some w ∧ w.Continues w' := by
  apply continues_of_withWorker h (fun w => (hkeep w).task)
  intro v hv
  obtain rfl := Option.some.inj (found.symm.trans hv)
  exact ⟨hkeep w, hphase⟩

end State

namespace Effect
open State Worker

/-- A worker was there before, with the same things given to it, or it is new. -/
theorem worker_cases {s s' : State} (h : Effect s s') {id : String} {w' : Worker}
    (hw' : s'.worker? id = some w') :
    (∃ w, s.worker? id = some w ∧ w.Continues w') ∨ s.Admits id w' := by
  cases h with
  | nothing => exact .inl ⟨w', hw', .refl w'⟩
  | refused => exact .inl ⟨w', hw', .refl w'⟩
  | edited inventory => exact .inl ⟨w', hw', .refl w'⟩
  | passed ms => exact .inl ⟨w', hw', .refl w'⟩
  | reported n found phase entry => exact .inl ⟨w', hw', .refl w'⟩
  | cancelled found active =>
    exact .inl (continues_of_withWorker hw' (fun _ => rfl) fun w _ => ⟨⟨rfl, rfl, rfl⟩, .stay _⟩)
  | startRefused found phase late =>
    exact .inl (continues_of_found found hw' (fun _ => ⟨rfl, rfl, rfl⟩) (phase ▸ .refuse))
  | skipped found phase entry pending unchanged =>
    exact .inl (continues_of_found found hw' (fun _ => ⟨rfl, rfl, rfl⟩) (phase ▸ .skip))
  | called deadline found phase entry pending unchanged =>
    exact .inl (continues_of_found found hw' (fun _ => ⟨rfl, rfl, rfl⟩) (phase ▸ .call deadline))
  | revoked found phase =>
    exact .inl (continues_of_found found hw' (fun _ => ⟨rfl, rfl, rfl⟩) (.stay _))
  | finished result found phase =>
    exact .inl (continues_of_found found hw' (fun _ => ⟨rfl, rfl, rfl⟩) (phase ▸ .finish _ _))
  | finishedLate result found phase =>
    exact .inl (continues_of_found found hw' (fun _ => ⟨rfl, rfl, rfl⟩) (phase ▸ .stop _ _))
  | wound found phase due =>
    exact .inl (continues_of_found found hw' (fun _ => ⟨rfl, rfl, rfl⟩)
      (phase ▸ .wind _ _ (s.stopOutcome_ne_applied _)))
  | abandoned found phase due =>
    exact .inl (continues_of_found found hw' (fun _ => ⟨rfl, rfl, rfl⟩) (phase ▸ .stop _ _))
  | settleRefused found phase late =>
    exact .inl (continues_of_found found hw' (fun _ => ⟨rfl, rfl, rfl⟩) (phase ▸ .settle _))
  | settled now found phase entry recorded =>
    exact .inl (continues_of_found found hw' (fun _ => ⟨rfl, rfl, rfl⟩) (phase ▸ .settle _))
  | shutDown =>
    rw [worker?_shutDown] at hw'
    obtain ⟨w, hw, rfl⟩ := Option.map_eq_some_iff.mp hw'
    exact .inl ⟨w, hw, ⟨rfl, rfl, rfl⟩, .stay _⟩
  | released found phase =>
    have hw := (worker?_filter (s := s) rfl id).symm.trans hw'
    split at hw
    · cases hw
    · exact .inl ⟨w', hw, .refl w'⟩
  | triggered accepting free scripted counted created =>
    rw [worker?_append (s := s) rfl, Option.or_eq_some_iff] at hw'
    rcases hw' with hw | ⟨-, hw⟩
    · exact .inl ⟨w', hw, .refl w'⟩
    · split at hw
      · next hid =>
        subst hid
        obtain rfl := Option.some.inj hw
        exact .inr ⟨(Registry.create_ok created).2.1, rfl, scripted_of_scriptFor scripted counted,
          fun hun => (Bool.and_eq_true_iff.mp hun).2⟩
      · cases hw

/-- The worker of a registered task was there before. -/
theorem worker_origin {s s' : State} (h : Effect s s') {id : String} {w' : Worker}
    (hregistered : s.registry.find? id ≠ none) (hw' : s'.worker? id = some w') :
    ∃ w, s.worker? id = some w ∧ w.Continues w' :=
  (h.worker_cases hw').resolve_right fun hnew => hregistered hnew.free

/-- A task that goes on has gone on before. -/
theorem hasEnded_eq_false {s s' : State} (h : Effect s s') (hs : s.Coherent) {id : String}
    {e : Registry.Entry} (he : s.registry.find? id = some e) (hactive : s'.hasEnded id = false) :
    s.hasEnded id = false := by
  obtain ⟨e', he', hfollows⟩ := h.task_follows hs he
  obtain ⟨e'', he'', hactive'⟩ := hasEnded_eq_false_iff.mp hactive
  obtain rfl := Option.some.inj (he'.symm.trans he'')
  exact hasEnded_eq_false_iff.mpr ⟨e, he, hfollows.isTerminal_eq_false hactive'⟩

/-- A live worker was live before, or it is new. -/
theorem live_cases {s s' : State} (h : Effect s s') (hs : s.Coherent) {id : String} {w' : Worker}
    (hlive : s'.Live id w') : (∃ w, s.Live id w ∧ w.Continues w') ∨ s.Admits id w' := by
  rcases h.worker_cases hlive.1 with ⟨w, hw, hcontinues⟩ | hnew
  · obtain ⟨e, he⟩ := Option.ne_none_iff_exists'.mp (hs.registered_of_worker? hw)
    exact .inl ⟨w, ⟨hw, h.hasEnded_eq_false hs he hlive.2⟩, hcontinues⟩
  · exact .inr hnew

/-- A task becomes a success only when its live worker settles that its rules were applied. -/
theorem of_success {s s' : State} (h : Effect s s') {id : String} {e e' : Registry.Entry}
    (he : s.registry.find? id = some e) (he' : s'.registry.find? id = some e')
    (hbefore : e.task.status ≠ .success) (hafter : e'.task.status = .success) :
    ∃ w, s.Live id w ∧ w.phase = .settling .applied ∧ s'.calls = s.calls := by
  have hstay : ∀ {d : Registry.Entry}, s.registry.find? id = some d → d.task.status ≠ .success := by
    intro d hd
    obtain rfl := Option.some.inj (he.symm.trans hd)
    exact hbefore
  have hamend : ∀ {id' : String} {d : Registry.Entry} {t : Task}, s.registry.find? id' = some d →
      (s.registry.amend d t).find? id = some e' → t.id = d.task.id →
      id = id' ∧ t.status = .success := by
    intro id' d t hd hfound hid
    rw [Registry.find?_amend hd hid] at hfound
    split at hfound
    · next heq =>
      obtain rfl := Option.some.inj hfound
      exact ⟨heq, hafter⟩
    · exact absurd hafter (hstay hfound)
  cases h with
  | triggered accepting free scripted counted created =>
    obtain rfl := Option.some.inj ((Registry.find?_create_of_some created he).symm.trans he')
    exact absurd hafter hbefore
  | cancelled found active =>
    obtain ⟨-, hstatus⟩ := hamend found he' rfl
    cases hstatus
  | skipped found phase entry pending unchanged =>
    obtain ⟨-, hstatus⟩ := hamend entry he' rfl
    cases hstatus
  | called deadline found phase entry pending unchanged =>
    obtain ⟨-, hstatus⟩ := hamend entry he' rfl
    cases hstatus
  | reported n found phase entry =>
    obtain ⟨rfl, hstatus⟩ := hamend entry he' (Task.progress_sameRebuild _ n).1
    rw [Task.progress_status] at hstatus
    exact absurd hstatus (hstay entry)
  | @settled w outcome d t now found phase entry recorded =>
    obtain ⟨hactive, -, -, hid, happlied⟩ := settleTask_ok recorded
    obtain ⟨rfl, hstatus⟩ := hamend entry he' hid
    rw [happlied.mp hstatus] at phase
    exact ⟨w, live_of_entry found entry hactive, phase, rfl⟩
  | _ => exact absurd hafter (hstay he')

end Effect

namespace State
open Worker

/-- What a worker is given when its task is triggered. -/
theorem worker?_of_trigger {s : State} {server id : String} {force : Bool} {now : Int64} {t : Task}
    (hregistered : ∀ {w}, s.worker? id = some w → s.registry.find? id ≠ none)
    (h : (s.trigger server force id now).1 = .ok t) :
    ∃ script, s.scriptFor server true .plain = .ok script ∧
      (s.step (.trigger server force id now)).worker? id =
        some { task := t, script, unchanged := !force && s.isUnchanged script } := by
  have htrigger : s.trigger server force id now = (.ok t, s.step (.trigger server force id now)) :=
    Prod.ext h rfl
  obtain ⟨script, total, registry, -, -, hscript, -, rfl, hcreate, hs'⟩ := trigger_ok htrigger
  refine ⟨script, hscript, ?_⟩
  have hnone : s.worker? id = none := by
    cases hw : s.worker? id with
    | none => rfl
    | some w => exact absurd (Registry.create_ok hcreate).2.1 (hregistered hw)
  rw [hs', worker?_append (s := s) rfl, hnone, Option.none_or]
  exact if_pos rfl

theorem Coherent.worker?_of_trigger {s : State} (hs : s.Coherent) {server id : String}
    {force : Bool} {now : Int64} {t : Task} (h : (s.trigger server force id now).1 = .ok t) :
    ∃ script, s.scriptFor server true .plain = .ok script ∧
      (s.step (.trigger server force id now)).worker? id =
        some { task := t, script, unchanged := !force && s.isUnchanged script } :=
  State.worker?_of_trigger hs.registered_of_worker? h

theorem Coherent.registered_run {s : State} (hs : s.Coherent) {id : String}
    (hregistered : s.registry.find? id ≠ none) (events : List Event) :
    (s.run events).registry.find? id ≠ none := by
  obtain ⟨e, he⟩ := Option.ne_none_iff_exists'.mp hregistered
  obtain ⟨e', he', -⟩ := hs.later_run he events
  simp [he']

/-- Throughout a run a registered task has the worker that it had, or none. -/
theorem Coherent.worker_run {s : State} (hs : s.Coherent) {id : String}
    (hregistered : s.registry.find? id ≠ none) (events : List Event) {w' : Worker}
    (hw' : (s.run events).worker? id = some w') : ∃ w, s.worker? id = some w ∧ w.SameJob w' := by
  have hstep : ∀ {r r' : State}, Effect r r' →
      (r.Coherent ∧ r.registry.find? id ≠ none ∧
        ∀ w', r.worker? id = some w' → ∃ w, s.worker? id = some w ∧ w.SameJob w') →
      r'.Coherent ∧ r'.registry.find? id ≠ none ∧
        ∀ w', r'.worker? id = some w' → ∃ w, s.worker? id = some w ∧ w.SameJob w' := by
    rintro r r' h ⟨hr, hregistered, hworker⟩
    obtain ⟨e, he⟩ := Option.ne_none_iff_exists'.mp hregistered
    obtain ⟨e', he', -⟩ := h.task_follows hr he
    refine ⟨h.coherent hr, by simp [he'], fun w' hw' => ?_⟩
    obtain ⟨v, hv, hsame⟩ := h.worker_origin hregistered hw'
    obtain ⟨w, hw, hsame'⟩ := hworker v hv
    exact ⟨w, hw, hsame'.trans hsame.toSameJob⟩
  exact (run_preserves hstep ⟨hs, hregistered, fun w hw => ⟨w, hw, .refl w⟩⟩ events).2.2 w' hw'

end State
end FirewallRollout.Rebuild
