import FirewallRollout.Proofs.Rebuild.Coherence

/-!
# The life of a task over a run

Every writer of a task, be it its worker, the executor that reports progress or the caller that
cancels, makes only changes that may come next in the life of the task. So a run shows a life of it,
in whatever order the steps are taken.
-/
namespace FirewallRollout.Rebuild

section Writers
variable {s : State} {w : Worker} {e : Registry.Entry}

/-- The executor reports on a task only while its worker is in a call. -/
theorem State.Coherent.follows_progress (hs : s.Coherent) (found : s.worker? w.task.id = some w)
    (phase : State.isCalling w.phase = true) (entry : s.registry.find? w.task.id = some e)
    (n : UInt32) : e.task.Follows (e.task.progress n) := by
  refine Task.follows_progress n (hs.started found entry ?_)
  intro hqueued
  simp [hqueued, State.isCalling] at phase

/-- A worker settles its task only after it has started it. -/
theorem State.Coherent.follows_settled (hs : s.Coherent) (found : s.worker? w.task.id = some w)
    {outcome : Outcome} (phase : w.phase = .settling outcome)
    (entry : s.registry.find? w.task.id = some e) {t : Task} {now : Int64}
    (recorded : s.settleTask e.task outcome now = (.ok (), t)) : e.task.Follows t :=
  (State.settleTask_ok recorded).2.1 (hs.started found entry (by simp [phase]))

end Writers

/-- What one step does to a registered task. -/
theorem Effect.task_follows {s s' : State} (h : Effect s s') (hs : s.Coherent) {id : String}
    {e : Registry.Entry} (he : s.registry.find? id = some e) :
    ∃ e', s'.registry.find? id = some e' ∧ e.task.Follows e'.task := by
  have hamend : ∀ {id' : String} {d : Registry.Entry} {t : Task}, s.registry.find? id' = some d →
      d.task.Follows t →
      ∃ e', (s.registry.amend d t).find? id = some e' ∧ e.task.Follows e'.task := by
    intro id' d t hd hfollows
    rw [Registry.find?_amend hd hfollows.same.1]
    split
    · next hid =>
      rw [hid, hd] at he
      obtain rfl := Option.some.inj he
      exact ⟨_, rfl, hfollows⟩
    · exact ⟨e, he, .refl _⟩
  -- the changes of one step that do not touch the registry
  have hstay : ∃ e', s.registry.find? id = some e' ∧ e.task.Follows e'.task := ⟨e, he, .refl _⟩
  cases h with
  | triggered accepting free scripted counted created =>
    exact ⟨e, Registry.find?_create_of_some created he, .refl _⟩
  | cancelled found active =>
    exact hamend found (Task.follows_endFailed _ _ _ active (.inl rfl))
  | skipped found phase entry pending unchanged =>
    exact hamend entry (Task.follows_running pending)
  | called deadline found phase entry pending unchanged =>
    exact hamend entry (Task.follows_running pending)
  | reported n found phase entry =>
    exact hamend entry (hs.follows_progress found phase entry n)
  | settled now found phase entry recorded =>
    exact hamend entry (hs.follows_settled found phase entry recorded)
  | _ => exact hstay

namespace State

/-- A registered task can be looked up in every later state, and changes as tasks may. -/
theorem Coherent.exists_lives {s : State} (hs : s.Coherent) {id : String} {e : Registry.Entry}
    (he : s.registry.find? id = some e) (events : List Event) :
    ∃ l : List Task, (s.trace events).map (·.registry.get id) = (e.task :: l).map .ok ∧
      (e.task :: l).IsChain Task.Follows := by
  have hget : s.registry.get id = .ok e.task := Registry.get_eq_ok_iff.mpr ⟨e, he, rfl⟩
  induction events generalizing s e with
  | nil => exact ⟨[], by simp [trace, hget], .singleton _⟩
  | cons event events ih =>
    obtain ⟨e', he', hfollows⟩ := (s.step_effect event).task_follows hs he
    obtain ⟨l, hl, hchain⟩ := ih ((s.step_effect event).coherent hs) he'
      (Registry.get_eq_ok_iff.mpr ⟨e', he', rfl⟩)
    refine ⟨e'.task :: l, ?_, List.isChain_cons_cons.mpr ⟨hfollows, hchain⟩⟩
    rw [trace, List.scanl_cons, List.map_cons, hget, ← trace, hl]
    rfl

/-- A registered task stays registered, and all that becomes of it comes later in its life. -/
theorem Coherent.later_run {s : State} (hs : s.Coherent) {id : String} {e : Registry.Entry}
    (he : s.registry.find? id = some e) (events : List Event) :
    ∃ e', (s.run events).registry.find? id = some e' ∧ e.task.Later e'.task := by
  have hstep : ∀ {r r' : State}, Effect r r' →
      (r.Coherent ∧ ∃ e', r.registry.find? id = some e' ∧ e.task.Later e'.task) →
      r'.Coherent ∧ ∃ e', r'.registry.find? id = some e' ∧ e.task.Later e'.task := by
    rintro r r' heffect ⟨hr, e', he', hlater⟩
    obtain ⟨e'', he'', hfollows⟩ := heffect.task_follows hr he'
    exact ⟨heffect.coherent hr, e'', he'', hlater.trans hfollows.toLater⟩
  exact (run_preserves hstep ⟨hs, e, he, (Task.Follows.refl e.task).toLater⟩ events).2

/-- An ended task is found unchanged for ever. -/
theorem Coherent.get_run_of_isTerminal {s : State} (hs : s.Coherent) {id : String}
    {e : Registry.Entry} (he : s.registry.find? id = some e) (hended : e.task.isTerminal = true)
    (events : List Event) : (s.run events).registry.get id = .ok e.task := by
  obtain ⟨e', he', hlater⟩ := hs.later_run he events
  exact Registry.get_eq_ok_iff.mpr ⟨e', he', hlater.frozen hended⟩

/-- What a caller who cancels is given is what everyone sees of the task from then on. -/
theorem Coherent.get_of_cancel {s : State} (hs : s.Coherent) {id : String} {now : Int64} {t : Task}
    (h : (s.cancel id now).1 = .ok t) (later : List Event) :
    ((s.step (.cancel id now)).run later).registry.get id = .ok t := by
  have hcoherent := (s.step_effect (.cancel id now)).coherent hs
  have hcancel : s.cancel id now = (.ok t, s.step (.cancel id now)) := Prod.ext h rfl
  obtain ⟨e, he, hactive, rfl, hs'⟩ := cancel_ok hcancel
  have hentry : (s.step (.cancel id now)).registry.find? id =
      some { e with task := e.task.abandon Task.cancelledMessage now } := by
    rw [hs']
    exact (Registry.find?_amend (t := e.task.abandon Task.cancelledMessage now) he rfl id).trans
      (if_pos rfl)
  exact hcoherent.get_run_of_isTerminal hentry rfl later

/-- A rebuild that was accepted is registered as a task that nobody has started. -/
theorem find?_of_trigger {s : State} {server id : String} {force : Bool} {now : Int64} {t : Task}
    (h : (s.trigger server force id now).1 = .ok t) :
    t = .create id server t.total force now ∧
      (s.step (.trigger server force id now)).registry.find? id =
        some { seq := s.registry.nextSeq, task := t } := by
  have htrigger : s.trigger server force id now = (.ok t, s.step (.trigger server force id now)) :=
    Prod.ext h rfl
  obtain ⟨script, total, registry, -, -, -, -, rfl, hcreate, hs'⟩ := trigger_ok htrigger
  refine ⟨rfl, ?_⟩
  rw [hs', Registry.find?_create hcreate]
  exact if_pos rfl

/-- Whatever happens before and after, a task that was triggered stays registered and has a life; a
caller who cancels it is given what everyone sees of it from then on. -/
theorem triggered_task_life (settings : Settings) (inventory : Inventory) (registry : Registry)
    (before after : List Event) {s : State}
    (hs : s = (initial settings inventory registry).run before) {server id : String} {force : Bool}
    {now : Int64} {t : Task} (h : (s.trigger server force id now).1 = .ok t) :
    t = .create id server t.total force now ∧
    (∃ lives, ((s.step (.trigger server force id now)).trace after).map (·.registry.get id) =
      lives.map .ok ∧ t.Life lives) ∧
    ∀ now' u, (((s.step (.trigger server force id now)).run after).cancel id now').1 = .ok u →
      ∀ later, ((((s.step (.trigger server force id now)).run after).step (.cancel id now')).run
        later).registry.get id = .ok u := by
  have hcoherent : s.Coherent := by
    rw [hs]
    exact (coherent_initial settings inventory registry).run before
  have hstep := (s.step_effect (.trigger server force id now)).coherent hcoherent
  obtain ⟨hcreate, hentry⟩ := find?_of_trigger h
  refine ⟨hcreate, ?_, fun now' u hcancel later => (hstep.run after).get_of_cancel hcancel later⟩
  obtain ⟨l, hl, hchain⟩ := hstep.exists_lives hentry after
  refine ⟨t :: l, hl, ?_⟩
  rw [hcreate] at hchain ⊢
  exact Task.life_of_chain hchain

/-- A task that is cancelled in its call, after some progress; the call returns well afterwards. -/
theorem triggered_task_life_cancelled :
    let s := initial {} { shelves := [("web",
      [{ id := .number 1, server := "web", chain := "INPUT", action := "ACCEPT" }])] } {}
    let s' := s.step (.trigger "web" false "a" 0)
    let t := { Task.create "a" "web" 1 false 0 with status := .running, processed := 1 }
    (s.trigger "web" false "a" 0).1 = .ok (.create "a" "web" 1 false 0) ∧
    (∃ lives, (s'.trace [.start "a", .report "a" 1, .cancel "a" 7]).map (·.registry.get "a") =
      lives.map .ok ∧ (Task.create "a" "web" 1 false 0).Life lives) ∧
    ((s'.run [.start "a", .report "a" 1]).cancel "a" 7).1 =
      .ok (t.abandon Task.cancelledMessage 7) ∧
    (((s'.run [.start "a", .report "a" 1]).step (.cancel "a" 7)).run
      [.finish "a" (.ok ()), .settle "a" 8]).registry.get "a" =
      .ok (t.abandon Task.cancelledMessage 7) := by
  intro s s' t
  have h : (s.trigger "web" false "a" 0).1 = .ok (.create "a" "web" 1 false 0) := by
    decide +kernel
  have hcancel : ((s'.run [.start "a", .report "a" 1]).cancel "a" 7).1 =
      .ok (t.abandon Task.cancelledMessage 7) := by
    decide +kernel
  obtain ⟨-, hlives, -⟩ := triggered_task_life {} s.inventory {} []
    [.start "a", .report "a" 1, .cancel "a" 7] rfl h
  obtain ⟨-, -, hseen⟩ := triggered_task_life {} s.inventory {} [] [.start "a", .report "a" 1] rfl h
  exact ⟨h, hlives, hcancel, hseen 7 _ hcancel [.finish "a" (.ok ()), .settle "a" 8]⟩

end State
end FirewallRollout.Rebuild
