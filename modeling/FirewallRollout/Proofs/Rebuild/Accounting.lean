import FirewallRollout.Proofs.Rebuild.Faithful

/-!
# The accounts of a rebuild

How the counters of a task stand at each moment and at its end, told from what its executor has
reported and what its call returned. An executor that performs a dry run or works through a remote shell
never leaves more rules applied and failed than there are.
-/
namespace FirewallRollout.Rebuild

namespace State

/-- In a run the call of a task returned a result to its worker. -/
def Returned (first : State) (id : String) (events : List Event) (result : Executor.Result) : Prop :=
  ∃ before later w, events = before ++ .finish id result :: later ∧
    (first.run before).worker? id = some w ∧ isCalling w.phase = true

theorem Returned.append {first : State} {id : String} {events : List Event}
    {result : Executor.Result} (h : first.Returned id events result) (more : List Event) :
    first.Returned id (events ++ more) result := by
  obtain ⟨before, later, w, rfl, hw, hphase⟩ := h
  exact ⟨before, later ++ more, w, by simp, hw, hphase⟩

end State
open State

/-- A worker has a failure to record only when its call has returned it. -/
structure Worker.Honest (w : Worker) (first : State) (events : List Event) : Prop where
  winding : ∀ f limit, w.phase ≠ .winding (.failed f) limit
  settling : ∀ f, w.phase = .settling (.failed f) → first.Returned w.task.id events (.error f)

section Honest
variable {first : State} {events : List Event} {w w' : Worker} {e : Event}

theorem Worker.Honest.stays (h : w.Honest first events) (e : Event) (cancelled : Bool) :
    Honest { w with cancelled } first (events ++ [e]) where
  winding := h.winding
  settling f hf := (h.settling f hf).append [e]

theorem Worker.Honest.acts (h : w.Honest first events)
    (hw : (first.run events).worker? w.task.id = some w) (hacts : w.Acts (first.run events) e w') :
    w'.Honest first (events ++ [e]) := by
  cases hacts with
  | idle e => exact h.stays e w.cancelled
  | cancelled ended => exact h.stays _ true
  | shutDown => exact h.stays _ true
  | revoked => exact h.stays _ true
  | skips => exact ⟨by simp, by simp⟩
  | calls queued begins => exact ⟨by simp, by simp⟩
  | returns result phase =>
    refine ⟨by simp, fun f hf => ?_⟩
    have houtcome : outcomeOf w result = .failed f := Phase.settling.inj hf
    obtain rfl : result = .error f := by
      cases result with
      | ok u => cases houtcome
      | error g =>
        dsimp only [outcomeOf] at houtcome
        split at houtcome
        · cases houtcome
        · rw [Outcome.failed.inj houtcome]
    exact ⟨events, [], w, rfl, hw, isCalling_iff.mpr (.inl ⟨_, phase⟩)⟩
  | winds e limit phase due =>
    refine ⟨fun f limit' hf => ?_, by simp⟩
    have houtcome := (Phase.winding.inj hf).1
    unfold stopOutcome at houtcome
    split at houtcome <;> cases houtcome
  | stops e phase =>
    refine ⟨by simp, fun f hf => ?_⟩
    obtain rfl := Phase.settling.inj hf
    exact absurd phase (h.winding f _)
  | leaves e => exact ⟨by simp, by simp⟩

end Honest

namespace State

/-- How the counters of a task stand when an event of a run ends it, told from the run before. -/
inductive Closes (first : State) (id : String) (u : Task) (before : List Event) : Event → Prop
  /-- A caller cancelled the task: its progress is kept, and all other rules count as failed. -/
  | cancelled {v : Task} {now : Int64} (task : (first.run before).registry.get id = .ok v)
      (accepted : ((first.run before).cancel id now).1 = .ok u)
      (kept : u.processed = v.processed)
      (reported : u.processed.toNat = min u.total.toNat (largest (first.reports id before)))
      (complete : u.processed.toNat + u.failed.toNat = u.total.toNat) :
      Closes first id u before (.cancel id now)
  /-- The worker gave up, its time being up or its token cancelled: in the same way. -/
  | stopped {v : Task} {now : Int64} {w : Worker} {outcome : Outcome}
      (task : (first.run before).registry.get id = .ok v)
      (worker : (first.run before).worker? id = some w) (phase : w.phase = .settling outcome)
      (unfinished : outcome = .timedOut ∨ outcome = .interrupted)
      (kept : u.processed = v.processed)
      (reported : u.processed.toNat = min u.total.toNat (largest (first.reports id before)))
      (complete : u.processed.toNat + u.failed.toNat = u.total.toNat) :
      Closes first id u before (.settle id now)
  /-- The executor failed: its failure counts as one more report, and as one failed rule at least. -/
  | failed {now : Int64} {w : Worker} {f : Executor.Failure}
      (worker : (first.run before).worker? id = some w) (phase : w.phase = .settling (.failed f))
      (returned : first.Returned id before (.error f))
      (reported : u.processed.toNat =
        min u.total.toNat (max (largest (first.reports id before)) f.processed.toNat))
      (counted : u.failed.toNat = min u.total.toNat (max 1 f.failed.toNat)) :
      Closes first id u before (.settle id now)
  /-- All rules were applied. -/
  | applied {now : Int64} {w : Worker} (worker : (first.run before).worker? id = some w)
      (phase : w.phase = .settling .applied) (success : u.status = .success)
      (all : u.processed = u.total) (none : u.failed = 0) : Closes first id u before (.settle id now)

/-- How the counters stand after an outcome is recorded. -/
theorem settleTask_counts {s : State} {t u : Task} {outcome : Outcome} {now : Int64}
    (h : s.settleTask t outcome now = (.ok (), u)) {reports : List UInt32} (ht : Tallied t reports) :
    u.total = t.total ∧
      match outcome with
      | .applied => u.processed = u.total ∧ u.failed = 0
      | .failed f =>
        u.processed.toNat = min u.total.toNat (max (largest reports) f.processed.toNat) ∧
          u.failed.toNat = min u.total.toNat (max 1 f.failed.toNat)
      | .timedOut | .interrupted =>
        u.processed = t.processed ∧ u.processed.toNat + u.failed.toNat = u.total.toNat := by
  have habort : ∀ {message : String}, t.abort message now = (.ok (), u) → u.total = t.total ∧
      u.processed = t.processed ∧ u.processed.toNat + u.failed.toNat = u.total.toNat := by
    intro message habort
    obtain ⟨-, rfl⟩ := Task.abort_ok habort
    exact ⟨rfl, Task.abandon_counts ht.le⟩
  cases outcome with
  | applied =>
    have hsucceed : t.succeed now = (.ok (), u) := h
    refine ⟨?_, Task.succeed_counts hsucceed⟩
    obtain ⟨-, rfl⟩ := Task.succeed_ok hsucceed
    rfl
  | failed f =>
    have hfail : (t.progress f.processed).fail f.failed _ now = (.ok (), u) := h
    obtain ⟨hprocessed, hfailed⟩ := Task.fail_counts hfail
    have htotal : u.total = t.total := by
      obtain ⟨-, rfl⟩ := Task.fail_ok hfail
      exact (Task.progress_sameRebuild t f.processed).2.2.1
    rw [(Task.progress_sameRebuild t f.processed).2.2.1] at hfailed
    refine ⟨htotal, ?_, by rw [htotal, hfailed]⟩
    rw [hprocessed, Task.toNat_progress_processed _ (settleTask_ok h).1, htotal, ht.processed]
    omega
  | timedOut => exact habort h
  | interrupted => exact habort h

section Ending
variable {first : State} (hs : first.Coherent) {w₀ : Worker}
  (hw₀ : first.worker? w₀.task.id = some w₀)
include hs hw₀

/-- A call that has returned is the only one of its task, and it was made with the plan of the task's
worker. -/
theorem Coherent.callsOf_of_returned {events : List Event} {result : Executor.Result}
    (h : first.Returned w₀.task.id events result) :
    (first.run events).callsOf w₀.task.id = [{ plan := w₀.plan, result := some result }] := by
  obtain ⟨before, later, w, rfl, hw, hphase⟩ := h
  have hsame : w.plan = w₀.plan := by
    obtain ⟨v, hv, hjob⟩ := hs.worker_run (hs.registered_of_worker? hw₀) before hw
    obtain rfl := Option.some.inj (hw₀.symm.trans hv)
    rw [Worker.plan, hjob.task, hjob.script, Worker.plan]
  have hcalling := ((hs.run before).callsOf_calling (id_of_worker? hw ▸ hw) hphase).2
  rw [id_of_worker? hw, hsame] at hcalling
  have hreturned : ((first.run before).step (.finish w₀.task.id result)).callsOf w₀.task.id =
      [{ plan := w₀.plan, result := some result }] := by
    obtain ⟨outcome, hfinish⟩ := finish_of_calling result hw hphase
    rw [step, hfinish, setPhase, callsOf_withWorker, callsOf_withResult, if_pos rfl, hcalling]
    rfl
  have hkept : ∀ {r r' : State}, Effect r r' →
      (r.Coherent ∧ r.callsOf w₀.task.id = [{ plan := w₀.plan, result := some result }]) →
      r'.Coherent ∧ r'.callsOf w₀.task.id = [{ plan := w₀.plan, result := some result }] :=
    fun h hr => ⟨h.coherent hr.1, h.callsOf_of_returned hr.1 hr.2 (by simp)⟩
  rw [run_append]
  have hstep := ((first.run before).step_effect (.finish w₀.task.id result)).coherent (hs.run before)
  exact (run_preserves hkept ⟨hstep, hreturned⟩ later).2

/-- A failure that an executor returned leaves room for one failed rule beside those that it counts as
applied, and these are all that it has reported. -/
theorem Coherent.admitted_of_returned {executor : Executor} (hexecutor : executor.Stepwise)
    {events : List Event} (hperforms : first.Performs executor w₀.task.id events)
    (hsize : w₀.plan.commands.length < UInt32.size) {f : Executor.Failure}
    (hreturned : first.Returned w₀.task.id events (.error f)) :
    f.Admitted w₀.plan.commands.length f.processed.toNat ∧
      ∀ n ∈ first.reports w₀.task.id events, n.toNat ≤ f.processed.toNat := by
  have hcalls := hs.callsOf_of_returned hw₀ hreturned
  obtain ⟨call, hperformance⟩ := hperforms _ (hcalls ▸ List.mem_singleton_self _)
  exact (hexecutor.counted call hsize).admitted hperformance

variable (hqueued : w₀.phase = .queued)
include hqueued

theorem Coherent.honest_run {events : List Event} {w : Worker}
    (hw : (first.run events).worker? w₀.task.id = some w) : w.Honest first events := by
  refine hs.worker_induction (P := fun w events => w.Honest first events) hw₀ ?_ ?_ hw
  · exact ⟨by simp [hqueued], by simp [hqueued]⟩
  · exact fun _ hw hacts hhonest => hhonest.acts hw hacts

/-- However a task ends, its counters stand as they should. -/
theorem Coherent.closes {e : Registry.Entry} (he : first.registry.find? w₀.task.id = some e)
    (htallied : Tallied e.task []) {u : Task} {events before : List Event} {last : Event}
    (hends : first.EndsWith w₀.task.id u events before last) :
    first.Closes w₀.task.id u before last := by
  rcases ended_by hends.active ((hasEnded_of_get hends.result).trans hends.ended) with
    ⟨now, rfl⟩ | ⟨now, rfl⟩
  · obtain ⟨haccepted, -⟩ := cancel_of_ended hends.active hends.result hends.ended
    obtain ⟨d, hd, hactive, rfl, -⟩ := cancel_ok (Prod.ext haccepted rfl)
    have htally := hs.tallied_run he htallied hd hactive
    exact .cancelled (Registry.get_eq_ok_iff.mpr ⟨d, hd, rfl⟩) haccepted rfl htally.processed
      (Task.abandon_counts htally.le).2
  · obtain ⟨w, outcome, d, hw, hphase, hd, hrecorded⟩ :=
      settle_of_ended hends.active hends.result hends.ended
    obtain ⟨hactive, -, -, -, hsuccess⟩ := settleTask_ok hrecorded
    have htally := hs.tallied_run he htallied hd hactive
    obtain ⟨htotal, hcounts⟩ := settleTask_counts hrecorded htally
    have htask := Registry.get_eq_ok_iff.mpr ⟨d, hd, rfl⟩
    have hstopped : (outcome = .timedOut ∨ outcome = .interrupted) → u.processed = d.task.processed →
        u.processed.toNat + u.failed.toNat = u.total.toNat →
        first.Closes w₀.task.id u before (.settle w₀.task.id now) := by
      intro hunfinished hkept hcomplete
      refine .stopped htask hw hphase hunfinished hkept ?_ hcomplete
      rw [hkept, htotal]
      exact htally.processed
    cases outcome with
    | applied => exact .applied hw hphase (hsuccess.mpr rfl) hcounts.1 hcounts.2
    | failed f =>
      have hreturned := (hs.honest_run hw₀ hqueued hw).settling f hphase
      rw [id_of_worker? hw] at hreturned
      exact .failed hw hphase hreturned hcounts.1 hcounts.2
    | timedOut => exact hstopped (.inl rfl) hcounts.1 hcounts.2
    | interrupted => exact hstopped (.inr rfl) hcounts.1 hcounts.2

/-- Where the executor applies the commands of its plan one by one, no more rules are applied and
failed than there are. -/
theorem Coherent.processed_add_failed_le {executor : Executor} (hexecutor : executor.Stepwise)
    {after : List Event} (hperforms : first.Performs executor w₀.task.id after)
    {e : Registry.Entry} (he : first.registry.find? w₀.task.id = some e)
    (htallied : Tallied e.task []) (hopen : e.task.isTerminal = false)
    (hcount : w₀.plan.commands.length = e.task.total.toNat) {u : Task}
    (hu : (first.run after).registry.get w₀.task.id = .ok u) :
    u.processed.toNat + u.failed.toNat ≤ u.total.toNat := by
  obtain ⟨e', he', rfl⟩ := Registry.get_eq_ok_iff.mp hu
  cases hended : e'.task.isTerminal with
  | false =>
    have htally := hs.tallied_run he htallied he' hended
    rw [htally.failed]
    exact htally.le
  | true =>
    obtain ⟨before, last, hends⟩ := hs.exists_endsWith he hopen hu hended
    cases hs.closes hw₀ hqueued he htallied hends with
    | cancelled task accepted kept reported complete => exact Nat.le_of_eq complete
    | stopped task worker phase unfinished kept reported complete => exact Nat.le_of_eq complete
    | @failed now w f worker phase returned reported counted =>
      obtain ⟨later, rfl⟩ := hends.split
      have hsize : w₀.plan.commands.length < UInt32.size := hcount ▸ e.task.total.toNat_lt
      obtain ⟨hadmitted, hreports⟩ := hs.admitted_of_returned hw₀ hexecutor hperforms hsize
        (returned.append _)
      have hlargest : largest (first.reports w₀.task.id before) ≤ f.processed.toNat := by
        refine largest_le fun n hn => hreports n ?_
        rw [reports_append]
        exact List.mem_append_left _ hn
      have htotal : e'.task.total = e.task.total := by
        obtain ⟨d, hd, hlater⟩ := hs.later_run he (before ++ .settle w₀.task.id now :: later)
        obtain rfl := Option.some.inj (he'.symm.trans hd)
        exact hlater.same.2.2.1
      have hroom := hadmitted.room
      have hfailed := hadmitted.failed
      rw [hcount, ← htotal] at hroom
      omega
    | applied worker phase success all none =>
      rw [all, none]
      exact Nat.le_refl _

end Ending

/-- A rebuild that is accepted counts the commands that its worker is given. -/
theorem Coherent.counted_of_trigger {s : State} (hs : s.Coherent) {server id : String} {force : Bool}
    {now : Int64} {t : Task} (htrigger : (s.trigger server force id now).1 = .ok t) :
    ∃ w₀, (s.step (.trigger server force id now)).worker? id = some w₀ ∧ w₀.task = t ∧
      w₀.phase = .queued ∧ w₀.plan.commands.length = t.total.toNat := by
  obtain ⟨script, hscript, hworker⟩ := hs.worker?_of_trigger htrigger
  obtain ⟨script', total, registry, -, -, hscript', htotal, rfl, -⟩ :=
    trigger_ok (Prod.ext htrigger rfl)
  obtain rfl := Except.ok.inj (hscript.symm.trans hscript')
  refine ⟨_, hworker, rfl, rfl, ?_⟩
  rw [Worker.plan, Script.commands, List.length_map]
  exact (Text.toNat_of_word32? htotal).symm

/-- Whatever happens after a rebuild was triggered: its task keeps its number of rules; while it is
running its progress is the largest report so far, and none failed; once it has ended its counters tell
how. An executor that applies the commands one by one never makes them exceed the number of rules. -/
theorem accounts_exact (settings : Settings) (inventory : Inventory) (registry : Registry)
    (before after : List Event) {s first : State}
    (hs : s = (initial settings inventory registry).run before) {server id : String} {force : Bool}
    {now : Int64} {t : Task} (htrigger : (s.trigger server force id now).1 = .ok t)
    (hfirst : first = s.step (.trigger server force id now)) {u : Task}
    (hu : (first.run after).registry.get id = .ok u) :
    u.total = t.total ∧
    (u.status = .running →
      u.processed.toNat = min t.total.toNat (largest (first.reports id after)) ∧ u.failed = 0) ∧
    (u.isTerminal = true →
      ∃ part last, first.EndsWith id u after part last ∧ first.Closes id u part last) ∧
    ∀ executor : Executor, executor.Stepwise → first.Performs executor id after →
      u.processed.toNat + u.failed.toNat ≤ u.total.toNat := by
  have hbefore : s.Coherent := hs ▸ (coherent_initial settings inventory registry).run before
  obtain ⟨hcreate, hentry⟩ := find?_of_trigger htrigger
  obtain ⟨w₀, hworker, htask, hqueued, hcount⟩ := hbefore.counted_of_trigger htrigger
  have hcoherent : first.Coherent := hfirst ▸ (s.step_effect _).coherent hbefore
  rw [← hfirst] at hentry hworker
  have hactive : t.isTerminal = false := congrArg Task.isTerminal hcreate
  have htallied : Tallied t [] := hcreate ▸ tallied_create id server t.total force now
  obtain rfl : t.id = id := congrArg Task.id hcreate
  subst htask
  obtain ⟨e, he, rfl⟩ := Registry.get_eq_ok_iff.mp hu
  have htotal : e.task.total = w₀.task.total := by
    obtain ⟨d, hd, hlater⟩ := hcoherent.later_run hentry after
    obtain rfl := Option.some.inj (he.symm.trans hd)
    exact hlater.same.2.2.1
  refine ⟨htotal, fun hrunning => ?_, fun hended => ?_, fun executor hexecutor hperforms => ?_⟩
  · have htally := hcoherent.tallied_run hentry htallied he (congrArg Status.isTerminal hrunning)
    exact ⟨htotal ▸ htally.processed, htally.failed⟩
  · obtain ⟨part, last, hends⟩ := hcoherent.exists_endsWith hentry hactive hu hended
    exact ⟨part, last, hends, hcoherent.closes hworker hqueued hentry htallied hends⟩
  · exact hcoherent.processed_add_failed_le hworker hqueued hexecutor hperforms hentry htallied hactive
      hcount hu

/-- A task whose executor has reported more than there is and then nothing, and a remote shell whose
first flush fails where there is no rule. -/
theorem accounts_exact_at_the_edges :
    let rule : Rule := { id := .number 1, server := "web", chain := "INPUT", action := "DROP" }
    let first := (initial {} (.ofEdits [.upsert rule]) {}).step (.trigger "web" true "a" 0)
    let events : List Event := [.start "a", .report "a" 7, .report "a" 0]
    let u := { Task.create "a" "web" 1 true 0 with status := .running, processed := 1 }
    let empty := (initial {} { shelves := [("web", [])] } {}).step (.trigger "web" true "b" 0)
    let shell : Executor := .ssh { targets := [("web", "host")] } [{ ending := .exit 1 [] }]
    let v := { Task.create "b" "web" 0 true 0 with
      status := .failed, errorMessage := some "'iptables -F' exited with 1: ", completedAt := some 9 }
    (first.run events).registry.get "a" = .ok u ∧
      u.processed.toNat = min 1 (largest (first.reports "a" events)) ∧
    ∃ later, empty.Performs shell "b" later ∧ (empty.run later).registry.get "b" = .ok v ∧
      (∃ part last, empty.EndsWith "b" v later part last ∧ empty.Closes "b" v part last) ∧
      v.processed.toNat + v.failed.toNat ≤ v.total.toNat := by
  intro rule first events u empty shell v
  have hfirst : ((initial {} (.ofEdits [.upsert rule]) {}).trigger "web" true "a" 0).1 =
      .ok (.create "a" "web" 1 true 0) := by decide +kernel
  have hu : (first.run events).registry.get "a" = .ok u := by decide +kernel
  obtain ⟨-, hrunning, -⟩ := accounts_exact {} (.ofEdits [.upsert rule]) {} [] events rfl hfirst rfl hu
  have hempty : ((initial {} { shelves := [("web", [])] } {}).trigger "web" true "b" 0).1 =
      .ok (.create "b" "web" 0 true 0) := by decide +kernel
  have hcoherent : empty.Coherent :=
    (step_effect _ _).coherent (coherent_initial {} { shelves := [("web", [])] } {})
  obtain ⟨later, hstate, hperforms⟩ := ((Simulation.faithful_of_uncalled empty shell 1
    (by decide +kernel) (by decide +kernel)).advance hcoherent 9 0).exists_run
  have hv : (empty.run later).registry.get "b" = .ok v := by
    rw [← hstate]
    decide +kernel
  obtain ⟨-, -, hclosed, hsum⟩ :=
    accounts_exact {} { shelves := [("web", [])] } {} [] later rfl hempty rfl hv
  exact ⟨hu, (hrunning rfl).1, later, hperforms "b", hv, hclosed rfl,
    hsum shell (.ssh _ _) (hperforms "b")⟩

end State
end FirewallRollout.Rebuild
