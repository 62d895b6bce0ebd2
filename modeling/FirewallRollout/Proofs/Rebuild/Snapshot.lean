import FirewallRollout.Proofs.Rebuild.Acts
import FirewallRollout.Proofs.Rebuild.Selection

/-!
# The snapshot of a rebuild

What a rebuild applies is fixed when it is triggered: the rules that are enabled for its server then.
Its task makes one call at most, which begins as the task starts to run, and whatever becomes of the
inventory and of other tasks in between, the call is made with the commands of these rules.
-/
namespace FirewallRollout.Rebuild

namespace State

/-- A call begins: its worker leaves the queue, and its task starts to run. -/
structure Begins (s s' : State) (w : Worker) (e : Registry.Entry) : Prop where
  worker : s.worker? w.task.id = some w
  queued : w.phase = .queued
  entry : s.registry.find? w.task.id = some e
  pending : e.task.status = .pending
  calls : s'.calls = s.calls ++ [{ plan := w.plan }]
  executing : ∃ deadline, s'.worker? w.task.id = some { w with phase := .executing deadline }
  running : s'.registry.find? w.task.id =
    some { e with task := { e.task with status := .running } }

/-- No task has made more than one call, and a pending one has made none. -/
structure CallsOnce (s : State) : Prop where
  once : ∀ id, (s.callsOf id).length ≤ 1
  pending : ∀ {id e}, s.registry.find? id = some e → e.task.status = .pending → s.callsOf id = []

end State

namespace Effect
open State
variable {s s' : State}

/-- What a step does to the history of calls. -/
theorem calls_cases (h : Effect s s') :
    s'.calls = s.calls ∨
      (∃ w result, s.worker? w.task.id = some w ∧ isCalling w.phase = true ∧
        s'.calls = (s.withResult w.task.id result).calls) ∨
      ∃ w e, s.Begins s' w e := by
  cases h with
  | @called w e deadline found phase entry pending unchanged timed =>
    refine .inr (.inr ⟨w, e, found, phase, entry, pending, rfl, ⟨deadline, ?_⟩, ?_⟩)
    · exact worker?_withWorker_self found fun _ => rfl
    · exact (Registry.find?_amend (t := { e.task with status := .running }) entry rfl _).trans
        (if_pos rfl)
  | finished result found phase =>
    exact .inr (.inl ⟨_, result, found, isCalling_iff.mpr (.inl ⟨_, phase⟩), rfl⟩)
  | finishedLate result found phase =>
    exact .inr (.inl ⟨_, result, found, isCalling_iff.mpr (.inr ⟨_, _, phase⟩), rfl⟩)
  | _ => exact .inl rfl

/-- What a step does to the calls of one task. -/
theorem callsOf_cases (h : Effect s s') (id : String) :
    (∃ f : Call → Call, (∀ c, (f c).plan = c.plan) ∧ s'.callsOf id = (s.callsOf id).map f) ∨
      ∃ w e, id = w.task.id ∧ s.Begins s' w e ∧ s'.callsOf id = s.callsOf id ++ [{ plan := w.plan }] := by
  have hstay : s'.callsOf id = s.callsOf id →
      ∃ f : Call → Call, (∀ c, (f c).plan = c.plan) ∧ s'.callsOf id = (s.callsOf id).map f :=
    fun hcalls => ⟨fun c => c, fun _ => rfl, by rw [hcalls, List.map_id']⟩
  rcases h.calls_cases with hcalls | ⟨w, result, -, -, hcalls⟩ | ⟨w, e, hbegins⟩
  · exact .inl (hstay (callsOf_congr hcalls id))
  · rw [callsOf_congr hcalls, callsOf_withResult]
    split
    · next hid => exact .inl ⟨fun c => { c with result := some result }, fun _ => rfl, by rw [hid]⟩
    · exact .inl ⟨fun c => c, fun _ => rfl, by rw [List.map_id']⟩
  · have hcalls := callsOf_append hbegins.calls id
    by_cases hid : id = w.task.id
    · exact .inr ⟨w, e, hid, hbegins, hcalls.trans (if_pos hid)⟩
    · exact .inl (hstay (hcalls.trans (if_neg hid)))

/-- A call that has returned stays the only one of its task, with the result that it returned. -/
theorem callsOf_of_returned (h : Effect s s') (hs : s.Coherent) {id : String} {c : Call}
    (hcalls : s.callsOf id = [c]) (hreturned : c.result ≠ none) : s'.callsOf id = [c] := by
  rw [← hcalls]
  rcases h.calls_cases with hsame | ⟨w, result, hw, hphase, hresult⟩ | ⟨w, e, hbegins⟩
  · exact callsOf_congr hsame id
  · rw [callsOf_congr hresult, callsOf_withResult, if_neg]
    rintro rfl
    -- the worker of a call that is going on waits for its result
    rw [(hs.callsOf_calling hw hphase).2] at hcalls
    obtain rfl := List.singleton_inj.mp hcalls
    exact hreturned rfl
  · rw [callsOf_append hbegins.calls, if_neg]
    rintro rfl
    have hcalled := (hs.fits hbegins.worker).called
    rw [Worker.Called, hbegins.queued, show w.task.id = w.plan.task from rfl, hcalls] at hcalled
    cases hcalled

theorem callsOnce (h : Effect s s') (hs : s.Coherent) (honce : s.CallsOnce) : s'.CallsOnce where
  once id := by
    rcases h.callsOf_cases id with ⟨f, -, hcalls⟩ | ⟨w, e, rfl, hbegins, hcalls⟩
    · rw [hcalls, List.length_map]
      exact honce.once id
    · rw [hcalls, honce.pending hbegins.entry hbegins.pending]
      exact Nat.le_refl 1
  pending {id e'} he' hpending := by
    -- a task that is pending now was so before, or it is new
    have hbefore : s.callsOf id = [] := by
      cases he : s.registry.find? id with
      | none => exact hs.uncalled he
      | some e =>
        obtain ⟨e'', he'', hfollows⟩ := h.task_follows hs he
        obtain rfl := Option.some.inj (he''.symm.trans he')
        exact honce.pending he (hfollows.idle hpending ▸ hpending)
    rcases h.callsOf_cases id with ⟨f, -, hcalls⟩ | ⟨w, e, rfl, hbegins, -⟩
    · rw [hcalls, hbefore, List.map_nil]
    · obtain rfl := Option.some.inj (he'.symm.trans hbegins.running)
      cases hpending

end Effect

namespace State

theorem callsOnce_initial (settings : Settings) (inventory : Inventory) (registry : Registry) :
    (initial settings inventory registry).CallsOnce where
  once _ := Nat.zero_le 1
  pending _ _ := rfl

theorem CallsOnce.run {s : State} (hs : s.Coherent) (honce : s.CallsOnce) (events : List Event) :
    (s.run events).CallsOnce := by
  have hstep : ∀ {r r' : State}, Effect r r' → r.Coherent ∧ r.CallsOnce → r'.Coherent ∧ r'.CallsOnce :=
    fun h ⟨hr, honce⟩ => ⟨h.coherent hr, h.callsOnce hr honce⟩
  exact (run_preserves hstep ⟨hs, honce⟩ events).2

/-- A call begins by the event that starts its task. -/
theorem Begins.event_eq {s : State} {event : Event} {w : Worker} {e : Registry.Entry}
    (h : s.Begins (s.step event) w e) : event = .start w.task.id := by
  obtain ⟨deadline, hw'⟩ := h.executing
  have hacts : w.Acts s event { w with phase := .executing deadline } := acts_of_step h.worker hw'
  have hqueued := h.queued
  generalize hcalling : { w with phase := Phase.executing deadline } = w' at hacts
  have hphase : w'.phase = .executing deadline := by rw [← hcalling]
  cases hacts with
  | calls queued begins => rfl
  | idle | cancelled | shutDown | revoked => simp [hqueued] at hphase
  | skips | leaves | returns | winds | stops => cases hphase

/-- A task that has ended without a call makes none. -/
theorem Coherent.callsOf_run_of_ended {s : State} (hs : s.Coherent) {id : String}
    {e : Registry.Entry} (he : s.registry.find? id = some e) (hended : e.task.isTerminal = true)
    (hnone : s.callsOf id = []) (events : List Event) : (s.run events).callsOf id = [] := by
  have hstep : ∀ {r r' : State}, Effect r r' →
      (r.Coherent ∧ (∃ e', r.registry.find? id = some e' ∧ e'.task = e.task) ∧ r.callsOf id = []) →
      r'.Coherent ∧ (∃ e', r'.registry.find? id = some e' ∧ e'.task = e.task) ∧
        r'.callsOf id = [] := by
    rintro r r' h ⟨hr, ⟨e', he', htask⟩, hnone⟩
    obtain ⟨e'', he'', hfollows⟩ := h.task_follows hr he'
    rw [htask] at hfollows
    refine ⟨h.coherent hr, ⟨e'', he'', hfollows.frozen hended⟩, ?_⟩
    rcases h.callsOf_cases id with ⟨f, -, hcalls⟩ | ⟨w, d, rfl, hbegins, -⟩
    · rw [hcalls, hnone, List.map_nil]
    · obtain rfl := Option.some.inj (he'.symm.trans hbegins.entry)
      rw [Task.isTerminal, ← htask, hbegins.pending] at hended
      cases hended
  exact (run_preserves hstep ⟨hs, ⟨e, he, rfl⟩, hnone⟩ events).2.2

/-- Whatever a worker calls, it calls with the plan that it was given. -/
theorem Coherent.plan_of_worker {s : State} (hs : s.Coherent) {id : String} {w : Worker}
    (hw : s.worker? id = some w) (hplans : ∀ c ∈ s.callsOf id, c.plan = w.plan)
    (events : List Event) : ∀ c ∈ (s.run events).callsOf id, c.plan = w.plan := by
  obtain rfl := id_of_worker? hw
  have hregistered := hs.registered_of_worker? hw
  induction events using List.reverseRecOn with
  | nil => exact hplans
  | append_singleton events event ih =>
    rw [run_append]
    rcases ((s.run events).step_effect event).callsOf_cases w.task.id with
      ⟨f, hplan, hcalls⟩ | ⟨v, e, hid, hbegins, hcalls⟩
    · intro c hc
      rw [show (s.run events).run [event] = (s.run events).step event from rfl, hcalls] at hc
      obtain ⟨d, hd, rfl⟩ := List.mem_map.mp hc
      rw [hplan, ih d hd]
    · intro c hc
      rw [show (s.run events).run [event] = (s.run events).step event from rfl, hcalls] at hc
      rcases List.mem_append.mp hc with hc | hc
      · exact ih c hc
      · obtain rfl := List.mem_singleton.mp hc
        obtain ⟨w', hw', hsame⟩ := hs.worker_run hregistered events (hid ▸ hbegins.worker)
        obtain rfl := Option.some.inj (hw.symm.trans hw')
        simp [Worker.plan, hsame.task, hsame.script]

/-- What a task that was triggered calls, and with which rules. -/
theorem Coherent.plan_of_trigger {s : State} (hs : s.Coherent) {held : Inventory.Holdings}
    (hheld : s.inventory.Presents held) {server id : String} {force : Bool} {now : Int64} {t : Task}
    (htrigger : (s.trigger server force id now).1 = .ok t) :
    ∃ rules commands, held.Enabled server rules ∧ Rule.Compiled rules commands ∧
      t.total.toNat = rules.length ∧
      ∀ after, ∀ c ∈ ((s.step (.trigger server force id now)).run after).callsOf id,
        c.plan = { task := id, server, preamble := Script.flushes, commands } := by
  have hafter : s.trigger server force id now = (.ok t, s.step (.trigger server force id now)) :=
    Prod.ext htrigger rfl
  obtain ⟨script, total, registry, -, -, hscript, htotal, rfl, hcreate, hs'⟩ := trigger_ok hafter
  obtain ⟨script', hscript', hworker⟩ := hs.worker?_of_trigger htrigger
  obtain rfl := Except.ok.inj (hscript.symm.trans hscript')
  obtain ⟨rules, henabled, hcompiled, hcount⟩ := exists_enabled_counted hheld hscript htotal
  refine ⟨rules, script.commands, henabled, hcompiled, hcount, fun after c hc => ?_⟩
  have hfirst := (s.step_effect (.trigger server force id now)).coherent hs
  have hcalls : (s.step (.trigger server force id now)).calls = s.calls := by
    rw [hs']
  have hnone : (s.step (.trigger server force id now)).callsOf id = [] := by
    rw [callsOf_congr hcalls]
    exact hs.uncalled (Registry.create_ok hcreate).2.1
  have hplan := hfirst.plan_of_worker hworker (fun c hc => by rw [hnone] at hc; cases hc) after c hc
  obtain ⟨rules', hassemble⟩ := scriptFor_ok hscript
  rw [hplan, Worker.plan, (Script.assemble_ok hassemble).1]
  rfl

/-- In every state of a run, whatever was done to the inventory: no task has made more than one call; a
call begins when its task goes from pending to running; a task that is cancelled while it is pending
makes none; and one that is triggered calls with the rules that were enabled for its server then. -/
theorem calls_are_snapshots (settings : Settings) (inventory : Inventory) (registry : Registry)
    (before : List Event) {s : State} (hs : s = (initial settings inventory registry).run before) :
    (∀ id, (s.callsOf id).length ≤ 1) ∧
    (∀ id event, s.callsOf id = [] → (s.step event).callsOf id ≠ [] →
      event = .start id ∧ ∃ u, s.registry.get id = .ok u ∧ u.status = .pending ∧
        (s.step event).registry.get id = .ok { u with status := .running }) ∧
    (∀ id u v now, s.registry.get id = .ok u → u.status = .pending → (s.cancel id now).1 = .ok v →
      ∀ later, ((s.step (.cancel id now)).run later).callsOf id = []) ∧
    ∀ edits server force id now t, s.inventory = .ofEdits edits →
      (s.trigger server force id now).1 = .ok t →
      ∃ rules commands, (Inventory.Holdings.ofEdits edits).Enabled server rules ∧
        Rule.Compiled rules commands ∧ t.total.toNat = rules.length ∧
        ∀ after, ∀ c ∈ ((s.step (.trigger server force id now)).run after).callsOf id,
          c.plan = { task := id, server, preamble := Script.flushes, commands } := by
  have hcoherent : s.Coherent := hs ▸ (coherent_initial settings inventory registry).run before
  have honce : s.CallsOnce := hs ▸ (callsOnce_initial settings inventory registry).run
    (coherent_initial settings inventory registry) before
  refine ⟨honce.once, fun id event hnone hsome => ?_, fun id u v now hu hpending hcancel later => ?_,
    fun edits server force id now t hedits htrigger => ?_⟩
  · rcases (s.step_effect event).callsOf_cases id with ⟨f, -, hcalls⟩ | ⟨w, e, rfl, hbegins, -⟩
    · rw [hcalls, hnone] at hsome
      exact absurd rfl hsome
    · exact ⟨hbegins.event_eq, e.task, Registry.get_eq_ok_iff.mpr ⟨e, hbegins.entry, rfl⟩,
        hbegins.pending, Registry.get_eq_ok_iff.mpr ⟨_, hbegins.running, rfl⟩⟩
  · obtain ⟨e, he, rfl⟩ := Registry.get_eq_ok_iff.mp hu
    have hafter : s.cancel id now = (.ok v, s.step (.cancel id now)) := Prod.ext hcancel rfl
    obtain ⟨e', he', -, rfl, hs'⟩ := cancel_ok hafter
    have hentry : (s.step (.cancel id now)).registry.find? id =
        some { e' with task := e'.task.abandon Task.cancelledMessage now } := by
      rw [hs']
      exact (Registry.find?_amend (t := e'.task.abandon Task.cancelledMessage now) he' rfl id).trans
        (if_pos rfl)
    refine ((s.step_effect (.cancel id now)).coherent hcoherent).callsOf_run_of_ended hentry rfl ?_
      later
    have hcalls : (s.step (.cancel id now)).calls = s.calls := by
      rw [hs']
      rfl
    rw [callsOf_congr hcalls]
    exact honce.pending he hpending
  · exact hcoherent.plan_of_trigger
      (hedits ▸ Inventory.presents_ofEdits edits : s.inventory.Presents _) htrigger

/-- A rule is disabled between the trigger and the start of one task, and another task is cancelled
before it starts. -/
theorem calls_are_snapshots_of_one_rule :
    let rule : Rule := { id := .number 1, server := "web", chain := "INPUT", action := "DROP" }
    let s := initial {} (.ofEdits [.upsert rule]) {}
    let off : Inventory := .ofEdits [.upsert rule, .upsert { rule with enabled := false }]
    ((s.step (.trigger "web" true "a" 0)).run [.edit off, .start "a"]).callsOf "a" ≠ [] ∧
    (∃ rules commands, (Inventory.Holdings.ofEdits [.upsert rule]).Enabled "web" rules ∧
      Rule.Compiled rules commands ∧ (1 : UInt32).toNat = rules.length ∧
      ∀ c ∈ ((s.step (.trigger "web" true "a" 0)).run [.edit off, .start "a"]).callsOf "a",
        c.plan = { task := "a", server := "web", preamble := Script.flushes, commands }) ∧
    (((s.run [.trigger "web" true "b" 0]).step (.cancel "b" 1)).run [.start "b"]).callsOf "b" = [] := by
  intro rule s off
  have htrigger : (s.trigger "web" true "a" 0).1 = .ok (.create "a" "web" 1 true 0) := by
    decide +kernel
  obtain ⟨-, -, -, hplan⟩ := calls_are_snapshots {} (.ofEdits [.upsert rule]) {} [] (s := s) rfl
  obtain ⟨-, -, hcancelled, -⟩ := calls_are_snapshots {} (.ofEdits [.upsert rule]) {}
    [.trigger "web" true "b" 0] rfl
  obtain ⟨rules, commands, henabled, hcompiled, hcount, hcalls⟩ :=
    hplan [.upsert rule] "web" true "a" 0 _ rfl htrigger
  refine ⟨by decide +kernel, ⟨rules, commands, henabled, hcompiled, hcount, hcalls _⟩,
    hcancelled "b" (.create "b" "web" 1 true 0)
      ((Task.create "b" "web" 1 true 0).abandon Task.cancelledMessage 1) 1 (by decide +kernel) rfl
      (by decide +kernel) [.start "b"]⟩

end State
end FirewallRollout.Rebuild
