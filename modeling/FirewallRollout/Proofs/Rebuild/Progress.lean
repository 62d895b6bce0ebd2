import FirewallRollout.Proofs.Rebuild.Cause
import FirewallRollout.Proofs.Task.Counters

/-!
# The progress of a task

What one event does to a task, and what the executor has reported on it so far. As long as a task has
not ended its progress is the largest of these reports, cut off at the number of its rules, in whatever
order they came and however often, and no rule counts as failed.
-/
namespace FirewallRollout.Rebuild

/-- The largest of some reports; nothing is reported at first. -/
def largest (reports : List UInt32) : Nat := reports.foldl (fun most n => max most n.toNat) 0

theorem largest_append_toList (reports : List UInt32) (n : Option UInt32) :
    largest (reports ++ n.toList) = n.elim (largest reports) fun n => max (largest reports) n.toNat := by
  cases n with
  | none => rw [Option.toList_none, List.append_nil, Option.elim_none]
  | some n => rw [Option.toList_some, largest, List.foldl_concat, Option.elim_some, largest]

theorem largest_le {reports : List UInt32} {bound : Nat} (h : ∀ n ∈ reports, n.toNat ≤ bound) :
    largest reports ≤ bound := by
  induction reports using List.reverseRecOn with
  | nil => exact Nat.zero_le bound
  | append_singleton reports n ih =>
    rw [List.forall_mem_append, List.forall_mem_singleton] at h
    have hlargest := largest_append_toList reports (some n)
    rw [Option.toList_some, Option.elim_some] at hlargest
    rw [hlargest]
    exact Nat.max_le.mpr ⟨ih h.1, h.2⟩

namespace State

/-- The number that an event reports on a task, if the call of the task is going on. -/
def heard? (s : State) (id : String) : Event → Option UInt32
  | .report id' n => if id' = id ∧ (s.workerIn? id isCalling).isSome then some n else none
  | _ => none

/-- What the executor reports on a task in a run, in order. -/
def reports (s : State) (id : String) : List Event → List UInt32
  | [] => []
  | e :: events => (s.heard? id e).toList ++ (s.step e).reports id events

theorem reports_append (s : State) (id : String) (events later : List Event) :
    s.reports id (events ++ later) = s.reports id events ++ (s.run events).reports id later := by
  induction events generalizing s with
  | nil => rfl
  | cons e events ih => rw [List.cons_append, reports, ih, reports, List.append_assoc]; rfl

theorem reports_singleton (s : State) (id : String) (e : Event) :
    s.reports id [e] = (s.heard? id e).toList := by
  rw [reports, reports, List.append_nil]

theorem reports_eq_nil {s : State} {id : String} {events : List Event}
    (h : ∀ n, .report id n ∉ events) : s.reports id events = [] := by
  induction events generalizing s with
  | nil => rfl
  | cons e events ih =>
    have hunheard : s.heard? id e = none := by
      cases e with
      | report id' n =>
        refine if_neg ?_
        rintro ⟨rfl, -⟩
        exact h n List.mem_cons_self
      | _ => rfl
    rw [reports, hunheard, ih fun n hn => h n (.tail _ hn)]
    rfl

theorem reports_snoc {first : State} {id : String} {events : List Event} {e : Event}
    (h : ∀ n, e ≠ .report id n) : first.reports id (events ++ [e]) = first.reports id events := by
  rw [reports_append, reports_eq_nil fun n hn => h n (List.mem_singleton.mp hn).symm, List.append_nil]

/-- Reports change neither a worker nor a call. -/
theorem frame_reports (s : State) (id : String) (ns : List UInt32) :
    (s.run (ns.map (.report id))).workers = s.workers ∧
      (s.run (ns.map (.report id))).calls = s.calls := by
  induction ns generalizing s with
  | nil => exact ⟨rfl, rfl⟩
  | cons n ns ih =>
    obtain ⟨hworkers, hcalls⟩ := ih (s.report id n)
    refine ⟨hworkers.trans (s.workers_report id n).1, hcalls.trans ?_⟩
    rcases s.calls_step (.report id n) with hsame | ⟨_, heq, -⟩ | ⟨_, _, heq, -⟩
    · exact hsame
    · cases heq
    · cases heq

/-- The reports on a task are heard while its call is going on. -/
theorem reports_map_report (s : State) (id id' : String) (ns : List UInt32) :
    s.reports id' (ns.map (.report id)) =
      if id = id' ∧ (s.workerIn? id' isCalling).isSome then ns else [] := by
  induction ns generalizing s with
  | nil => simp [reports]
  | cons n ns ih =>
    have hsame : (s.step (.report id n)).workerIn? id' isCalling = s.workerIn? id' isCalling := by
      rw [workerIn?, worker?, step, (s.workers_report id n).1, workerIn?, worker?]
    rw [List.map_cons, reports, ih, hsame, heard?]
    split <;> simp

/-- What an event makes of a registered task. -/
inductive Changes (s : State) (t : Task) : Event → Task → Prop
  | idle {e : Event} (unheard : s.heard? t.id e = none) : Changes s t e t
  | started (pending : t.status = .pending) : Changes s t (.start t.id) { t with status := .running }
  | reported {n : UInt32} (heard : s.heard? t.id (.report t.id n) = some n) :
      Changes s t (.report t.id n) (t.progress n)
  | cancelled {now : Int64}
      (accepted : (s.cancel t.id now).1 = .ok (t.abandon Task.cancelledMessage now)) :
      Changes s t (.cancel t.id now) (t.abandon Task.cancelledMessage now)
  | settled {now : Int64} {w : Worker} {outcome : Outcome} {u : Task}
      (worker : s.worker? t.id = some w) (phase : w.phase = .settling outcome)
      (recorded : s.settleTask t outcome now = (.ok (), u)) : Changes s t (.settle t.id now) u

section Step
variable {s : State} {id : String} {e : Registry.Entry} (he : s.registry.find? id = some e)
include he

/-- A task that is written is the one that was asked for, and all others are as before. -/
theorem changes_amend {event : Event} {d : Registry.Entry} {t : Task} {id' : String}
    (hd : s.registry.find? id' = some d) (ht : t.id = d.task.id)
    (hunheard : id ≠ id' → s.heard? e.task.id event = none)
    (hchanges : s.Changes d.task event t) :
    ∃ e', (s.registry.amend d t).find? id = some e' ∧ s.Changes e.task event e'.task := by
  rw [Registry.find?_amend hd ht]
  split
  · next hid =>
    rw [hid, hd] at he
    obtain rfl := Option.some.inj he
    exact ⟨_, rfl, hchanges⟩
  · next hid => exact ⟨e, he, .idle (hunheard hid)⟩

theorem changes_trigger {event : Event} {server id' : String} {force : Bool} {now : Int64}
    (hunheard : s.heard? e.task.id event = none) :
    ∃ e', (s.trigger server force id' now).2.registry.find? id = some e' ∧
      s.Changes e.task event e'.task := by
  refine ⟨e, ?_, .idle hunheard⟩
  cases h : s.trigger server force id' now with
  | mk result s' =>
    cases result with
    | error error => rcases trigger_error h with rfl | rfl <;> exact he
    | ok t =>
      obtain ⟨script, total, registry, -, -, -, -, -, hcreate, rfl⟩ := trigger_ok h
      exact Registry.find?_create_of_some hcreate he

theorem changes_cancel (id' : String) (now : Int64) :
    ∃ e', (s.step (.cancel id' now)).registry.find? id = some e' ∧
      s.Changes e.task (.cancel id' now) e'.task := by
  rcases s.cancel_cases id' now with hsame | ⟨d, hd, haccepted, hs'⟩
  · rw [hsame]
    exact ⟨e, he, .idle rfl⟩
  · rw [hs', registry_withWorker]
    obtain rfl := Registry.id_of_find? hd
    exact changes_amend he hd rfl (fun _ => rfl) (.cancelled haccepted)

theorem changes_start (id' : String) :
    ∃ e', (s.start id').registry.find? id = some e' ∧ s.Changes e.task (.start id') e'.task := by
  rw [start_eq]
  split
  · exact ⟨e, he, .idle rfl⟩
  split
  · exact ⟨e, he, .idle rfl⟩
  next s' hsome =>
  obtain ⟨d, t, hd, hstart, rfl⟩ := withTask?_eq_some_iff.mp hsome
  obtain ⟨hpending, rfl⟩ := Task.start_ok hstart
  obtain rfl := Registry.id_of_find? hd
  have hstarted := changes_amend (t := { d.task with status := .running }) he hd rfl (fun _ => rfl)
    (.started hpending)
  split
  · exact hstarted
  · exact hstarted

theorem changes_report (id' : String) (n : UInt32) :
    ∃ e', (s.report id' n).registry.find? id = some e' ∧
      s.Changes e.task (.report id' n) e'.task := by
  obtain rfl := Registry.id_of_find? he
  unfold report
  split
  · next hnone =>
    refine ⟨e, he, .idle ?_⟩
    simp only [heard?, ite_eq_right_iff, reduceCtorEq, imp_false, not_and]
    rintro rfl
    simp [hnone]
  next w hw =>
  cases hsome : s.withTask? id' fun t => (.ok (), t.progress n) with
  | none =>
    -- a task that is registered takes every report
    refine ⟨e, he, .idle (if_neg ?_)⟩
    rintro ⟨rfl, -⟩
    obtain ⟨refusal, hrefusal⟩ := withTask?_eq_none hsome he
    cases hrefusal
  | some s' =>
    obtain ⟨d, t, hd, ht, rfl⟩ := withTask?_eq_some_iff.mp hsome
    obtain rfl := (Prod.mk.inj ht).2
    obtain rfl := Registry.id_of_find? hd
    refine changes_amend he hd (Task.progress_sameRebuild d.task n).1 ?_ (.reported ?_)
    · exact fun hid => if_neg fun h => hid h.1.symm
    · exact if_pos ⟨rfl, by rw [hw]; rfl⟩

theorem changes_settle (id' : String) (now : Int64) :
    ∃ e', (s.settle id' now).registry.find? id = some e' ∧
      s.Changes e.task (.settle id' now) e'.task := by
  rcases s.settle_cases id' now with hsame | ⟨w, outcome, d, t, hw, hphase, hd, ht, hregistry⟩
  · rw [hsame]
    exact ⟨e, he, .idle rfl⟩
  · rw [hregistry]
    obtain rfl := Registry.id_of_find? hd
    exact changes_amend he hd (settleTask_ok ht).2.2.2.1 (fun _ => rfl) (.settled hw hphase ht)

/-- A registered task stays registered, and every event does one of these things to it. -/
theorem changes_of_step (event : Event) :
    ∃ e', (s.step event).registry.find? id = some e' ∧ s.Changes e.task event e'.task := by
  have hquiet : ∀ {registry : Registry}, registry = s.registry → s.heard? e.task.id event = none →
      ∃ e', registry.find? id = some e' ∧ s.Changes e.task event e'.task :=
    fun hsame hunheard => ⟨e, hsame ▸ he, .idle hunheard⟩
  cases event with
  | trigger server force id' now => exact changes_trigger he rfl
  | cancel id' now => exact changes_cancel he id' now
  | start id' => exact changes_start he id'
  | report id' n => exact changes_report he id' n
  | settle id' now => exact changes_settle he id' now
  | shutDown => exact hquiet rfl rfl
  | edit inventory => exact hquiet rfl rfl
  | revoke id' => exact hquiet (s.registry_revoke id') rfl
  | finish id' result => exact hquiet (s.registry_finish id' result) rfl
  | expire id' => exact hquiet (s.registry_expire id') rfl
  | notice id' => exact hquiet (s.registry_notice id') rfl
  | abandon id' => exact hquiet (s.registry_abandon id') rfl
  | release id' => exact hquiet (s.registry_release id') rfl
  | pass ms => exact hquiet (s.registry_pass ms) rfl

end Step

/-- The counters of a task that has not ended, after some reports on it. -/
structure Tallied (t : Task) (reports : List UInt32) : Prop where
  processed : t.processed.toNat = min t.total.toNat (largest reports)
  failed : t.failed = 0

theorem tallied_create (id server : String) (total : UInt32) (force : Bool) (now : Int64) :
    Tallied (.create id server total force now) [] where
  processed := (Nat.min_zero _).symm
  failed := rfl

theorem Tallied.le {t : Task} {reports : List UInt32} (h : Tallied t reports) :
    t.processed.toNat ≤ t.total.toNat := by
  rw [h.processed]
  exact Nat.min_le_left _ _

/-- An event that does not end a task changes its counters by what it reports. -/
theorem Changes.tallied {s : State} {t u : Task} {event : Event} (h : s.Changes t event u)
    (hactive : u.isTerminal = false) {reports : List UInt32} (ht : Tallied t reports) :
    Tallied u (reports ++ (s.heard? t.id event).toList) := by
  cases h with
  | idle unheard =>
    rw [unheard, Option.toList_none, List.append_nil]
    exact ht
  | started pending =>
    rw [show s.heard? t.id (.start t.id) = none from rfl, Option.toList_none, List.append_nil]
    exact ⟨ht.processed, ht.failed⟩
  | @reported n heard =>
    rw [Task.progress_isTerminal] at hactive
    refine ⟨?_, (Task.progress_failed t n).trans ht.failed⟩
    rw [heard, largest_append_toList, Option.elim_some, Task.toNat_progress_processed n hactive,
      (Task.progress_sameRebuild t n).2.2.1, ht.processed]
    omega
  | cancelled accepted => cases hactive
  | settled worker phase recorded =>
    rw [(settleTask_ok recorded).2.2.1] at hactive
    cases hactive

/-- As long as it goes on, the counters of a task are those of the reports on it so far. -/
theorem Coherent.tallied_run {first : State} (hs : first.Coherent) {id : String} {e e' : Registry.Entry}
    (he : first.registry.find? id = some e) (htallied : Tallied e.task []) {events : List Event}
    (he' : (first.run events).registry.find? id = some e') (hactive : e'.task.isTerminal = false) :
    Tallied e'.task (first.reports id events) := by
  -- a report counts after those before it, so the run has to grow at its end
  induction events using List.reverseRecOn generalizing e' with
  | nil =>
    obtain rfl := Option.some.inj (he.symm.trans he')
    exact htallied
  | append_singleton events event ih =>
    rw [run_append] at he'
    obtain ⟨d, hd⟩ := Option.ne_none_iff_exists'.mp
      (hs.registered_run (Option.ne_none_iff_exists'.mpr ⟨e, he⟩) events)
    obtain ⟨d', hd', hchanges⟩ := changes_of_step hd event
    obtain rfl := Option.some.inj (hd'.symm.trans he')
    obtain ⟨_, he'', hfollows⟩ := ((first.run events).step_effect event).task_follows (hs.run events) hd
    obtain rfl := Option.some.inj (hd'.symm.trans he'')
    rw [reports_append, reports_singleton, ← Registry.id_of_find? hd]
    have hbefore := ih hd (hfollows.toLater.isTerminal_eq_false hactive)
    rw [← Registry.id_of_find? hd] at hbefore
    exact hchanges.tallied hactive hbefore

end State
end FirewallRollout.Rebuild
