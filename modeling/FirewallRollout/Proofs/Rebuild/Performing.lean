import FirewallRollout.Proofs.Executor.Performance
import FirewallRollout.Proofs.Rebuild.Elapse
import FirewallRollout.Proofs.Rebuild.Progress
import FirewallRollout.Proofs.Rebuild.Snapshot

/-!
# Executors attend to calls

What is reported on a task in a simulation, and what its call returns, are from a performance of the
executor's program. While its worker waits, a call has an activity that has passed what was reported. The
steps of a simulation keep this up for every task: a worker that starts, an activity that goes on, and
all that has nothing to do with the call.
-/
namespace FirewallRollout.Rebuild
open Executor (Activity Performance)

namespace Simulation
open State

/-- The executor attends to the call of a task, after some reports on it: what was reported and what it
returned are from a performance of its program, and the call has an activity as long as its worker
waits for it. -/
structure Attends (sim : Simulation) (id : String) (reports : List UInt32) : Prop where
  performs : ∀ c ∈ sim.state.callsOf id, ∃ call,
    Performance (sim.executor.program call c.plan) reports c.result
  calling : ∀ w, sim.state.worker? id = some w → isCalling w.phase = true → ∃ a call,
    sim.activities.lookup id = some a ∧ a.Performs (sim.executor.program call w.plan) reports
  silent : sim.state.callsOf id = [] → reports = []

section Frame
variable {sim sim' : Simulation} {id : String} {reports : List UInt32}

/-- What has nothing to do with a call leaves the executor attending to it. -/
theorem Attends.frame (h : sim.Attends id reports) (hexecutor : sim'.executor = sim.executor)
    (hcalls : sim'.state.callsOf id = sim.state.callsOf id)
    (hcalling : ∀ w', sim'.state.worker? id = some w' → isCalling w'.phase = true →
      ∃ w, sim.state.worker? id = some w ∧ isCalling w.phase = true ∧ w'.plan = w.plan)
    (hactivity : ∀ w', sim'.state.worker? id = some w' → isCalling w'.phase = true →
      sim'.activities.lookup id = sim.activities.lookup id) : sim'.Attends id reports where
  performs := by
    rw [hcalls, hexecutor]
    exact h.performs
  calling w' hw' hphase' := by
    obtain ⟨w, hw, hphase, hplan⟩ := hcalling w' hw' hphase'
    rw [hactivity w' hw' hphase', hexecutor, hplan]
    exact h.calling w hw hphase
  silent := by
    rw [hcalls]
    exact h.silent

/-- An event that is not of the executor, for the task of the call. -/
theorem Attends.take (h : sim.Attends id reports) {e : Event} (hstart : e ≠ .start id)
    (hfinish : ∀ result, e ≠ .finish id result) : (sim.take e).Attends id reports :=
  h.frame rfl (callsOf_step hstart hfinish) (fun _ => calling_origin hstart) fun _ _ _ => rfl

end Frame

section Start
variable {sim : Simulation} {id : String} {reports : List UInt32}

theorem start_eq_take (hcalls : (sim.state.start id).calls = sim.state.calls) :
    sim.start id = sim.take (.start id) := by
  unfold start
  dsimp only
  rw [show (sim.take (.start id)).state.calls = sim.state.calls from hcalls, List.drop_length]

theorem start_eq_put {c : Call} (hcalls : (sim.state.start id).calls = sim.state.calls ++ [c]) :
    sim.start id = { sim.take (.start id) with
      activities := Assoc.put sim.activities id
        (.start (sim.executor.program sim.state.calls.length c.plan) sim.state.clock) } := by
  unfold start
  dsimp only
  rw [show (sim.take (.start id)).state.calls = sim.state.calls ++ [c] from hcalls, List.drop_left]

theorem executor_start (sim : Simulation) (id : String) : (sim.start id).executor = sim.executor := by
  unfold start
  dsimp only
  split <;> rfl

/-- The start of a worker is nothing to the calls of others. -/
theorem Attends.start_of_ne {id' : String} (h : sim.Attends id' reports) (hid : id' ≠ id) :
    (sim.start id).Attends id' reports := by
  have htaken := h.take (e := .start id) (fun heq => hid (Event.start.inj heq).symm) nofun
  rcases sim.state.calls_step (.start id) with hcalls | ⟨w, -, hcalls⟩ | ⟨_, _, heq, -⟩
  · rw [start_eq_take hcalls]
    exact htaken
  · rw [start_eq_put hcalls]
    refine htaken.frame rfl rfl (fun v hv hcalling => ⟨v, hv, hcalling, rfl⟩) fun _ _ _ => ?_
    exact (Assoc.lookup_put _ _ _ _).trans (if_neg hid)
  · cases heq

/-- A worker that starts may begin its call, with an activity that has passed nothing yet. -/
theorem Attends.start_self (h : sim.Attends id reports) (hs : sim.state.Coherent) :
    (sim.start id).Attends id reports := by
  rcases sim.state.start_cases id with ⟨hsame, -⟩ | ⟨w, s₁, phase, hw, hqueued, hs₁, hworkers, -, hcalls⟩
  · rw [start_eq_take (congrArg State.calls hsame)]
    refine h.frame rfl (callsOf_congr (congrArg State.calls hsame) id) (fun v hv hcalling => ?_)
      fun _ _ _ => rfl
    exact ⟨v, by rwa [← hsame], hcalling, rfl⟩
  obtain rfl := id_of_worker? hw
  have hw' : (sim.state.start w.task.id).worker? w.task.id = some { w with phase } := by
    rw [hs₁]
    exact worker?_withWorker_self (by rw [← hw, worker?, worker?, hworkers]) fun _ => rfl
  rcases hcalls with ⟨hcalls, hphase⟩ | ⟨hcalls, -⟩
  · replace hcalls := (congrArg State.calls hs₁).trans hcalls
    rw [start_eq_take hcalls]
    refine h.frame rfl (callsOf_congr hcalls _) (fun v hv hcalling => ?_) fun _ _ _ => rfl
    obtain rfl := Option.some.inj (hw'.symm.trans hv)
    rcases hphase with rfl | rfl <;> cases hcalling
  · replace hcalls := (congrArg State.calls hs₁).trans hcalls
    have hnone : sim.state.callsOf w.task.id = [] := by
      have hcalled := (hs.fits hw).called
      rwa [Worker.Called, hqueued] at hcalled
    have hone : (sim.state.start w.task.id).callsOf w.task.id = [{ plan := w.plan }] := by
      refine (callsOf_append hcalls w.task.id).trans ((if_pos rfl).trans ?_)
      rw [hnone, List.nil_append]
    have hactivity := Activity.performs_start
      (sim.executor.program sim.state.calls.length w.plan) sim.state.clock
    rw [start_eq_put hcalls, h.silent hnone]
    refine ⟨fun c hc => ?_, fun v hv _ => ?_, fun _ => rfl⟩
    · obtain rfl := List.mem_singleton.mp (hone ▸ hc)
      exact ⟨_, hactivity.performance⟩
    · obtain rfl := Option.some.inj (hw'.symm.trans hv)
      exact ⟨_, _, (Assoc.lookup_put _ _ _ _).trans (if_pos rfl), hactivity⟩

end Start

section Drive
variable {sim : Simulation} {id : String} {reports : List UInt32} {w : Worker}

/-- After some reports on a task the executor attends to all calls as before, but that these reports are
still to be counted. -/
theorem Attends.told {id' : String} (h : sim.Attends id' reports) (id : String) (ns : List UInt32) :
    ({ sim with state := sim.state.run (ns.map (.report id)) } : Simulation).Attends id' reports := by
  obtain ⟨hworkers, hcalls⟩ := frame_reports sim.state id ns
  refine h.frame rfl (callsOf_congr hcalls id') (fun v hv hcalling => ?_) fun _ _ _ => rfl
  exact ⟨v, by rwa [worker?, hworkers] at hv, hcalling, rfl⟩

variable {a : Activity} {passed : List Executor.Act} (hw : sim.state.worker? id = some w)
  (ha : sim.activities.lookup id = some a)
include hw ha

/-- An activity that has to wait again. -/
theorem drive_inl {a' : Activity} (hpoll : a.poll sim.state.clock w.cancelled = (passed, .inl a')) :
    ∃ activities, sim.drive id = { sim with
        state := sim.state.run ((Executor.reportsOf passed).map (.report id)), activities } ∧
      (∀ id', id' ≠ id → activities.lookup id' = sim.activities.lookup id') ∧
      ∃ next, activities.lookup id = some next ∧ (next = a' ∨ passed = [] ∧ next = a) := by
  unfold Simulation.drive
  rw [ha, hw]
  dsimp only
  rw [hpoll]
  dsimp only
  rw [take_reports]
  split
  · next hnone => exact ⟨_, rfl, fun _ _ => rfl, a, ha, .inr ⟨List.isEmpty_iff.mp hnone, rfl⟩⟩
  · refine ⟨_, rfl, fun id' hid => ?_, a', ?_, .inl rfl⟩
    · exact (Assoc.lookup_erase_append _ _ _ _).trans (if_neg hid)
    · exact (Assoc.lookup_erase_append _ _ _ _).trans (if_pos rfl)

/-- An activity that returns. -/
theorem drive_inr {result : Executor.Result}
    (hpoll : a.poll sim.state.clock w.cancelled = (passed, .inr result)) :
    sim.drive id = { sim with
      state := (sim.state.run ((Executor.reportsOf passed).map (.report id))).finish id result
      activities := Assoc.erase sim.activities id } := by
  unfold Simulation.drive
  rw [ha, hw]
  dsimp only
  rw [hpoll]
  dsimp only
  rw [take_reports]
  rfl

/-- Whatever an activity of one task does, the calls of others are attended to as before. -/
theorem Attends.drive_of_ne {id' : String} (h : sim.Attends id' reports) (hid : id' ≠ id) :
    (sim.drive id).Attends id' reports := by
  have htold := h.told id (Executor.reportsOf (a.poll sim.state.clock w.cancelled).1)
  cases hpoll : a.poll sim.state.clock w.cancelled with
  | mk passed next =>
    rw [hpoll] at htold
    cases next with
    | inl a' =>
      obtain ⟨activities, hdrive, hothers, -⟩ := drive_inl hw ha hpoll
      rw [hdrive]
      exact htold.frame rfl rfl (fun v hv hcalling => ⟨v, hv, hcalling, rfl⟩)
        fun _ _ _ => hothers id' hid
    | inr result =>
      rw [drive_inr hw ha hpoll]
      refine (htold.take (e := .finish id result) nofun fun _ heq => ?_).frame rfl rfl
        (fun v hv hcalling => ⟨v, hv, hcalling, rfl⟩) fun _ _ _ => ?_
      · exact hid (Event.finish.inj heq).1.symm
      · exact (Assoc.lookup_erase _ _ _).trans (if_neg hid)

/-- An activity whose call is over does nothing. -/
theorem Attends.drive_idle (h : sim.Attends id reports) (hidle : isCalling w.phase = false) :
    (sim.drive id).Attends id reports := by
  have hworker : ∀ ns : List UInt32, (sim.state.run (ns.map (.report id))).worker? id = some w := by
    intro ns
    rw [worker?, (frame_reports sim.state id ns).1]
    exact hw
  have hquiet : ∀ {ns : List UInt32} {activities : List (String × Activity)},
      ({ sim with state := sim.state.run (ns.map (.report id)), activities } : Simulation).Attends id
        reports := by
    intro ns activities
    have hnone : ∀ v, (sim.state.run (ns.map (.report id))).worker? id = some v →
        isCalling v.phase = true → False := by
      intro v hv hcalling
      obtain rfl := Option.some.inj ((hworker ns).symm.trans hv)
      rw [hidle] at hcalling
      cases hcalling
    exact h.frame rfl (callsOf_congr (frame_reports sim.state id ns).2 id)
      (fun v hv hcalling => (hnone v hv hcalling).elim) fun v hv hcalling => (hnone v hv hcalling).elim
  cases hpoll : a.poll sim.state.clock w.cancelled with
  | mk passed next =>
    cases next with
    | inl a' =>
      obtain ⟨activities, hdrive, -⟩ := drive_inl hw ha hpoll
      rw [hdrive]
      exact hquiet
    | inr result =>
      rw [drive_inr hw ha hpoll, finish_of_not_calling _ (hworker _) hidle]
      exact hquiet

section Calling
variable (h : sim.Attends id reports) (hs : sim.state.Coherent) (hcalling : isCalling w.phase = true)
include h hs hcalling

theorem callsOf_told (ns : List UInt32) :
    (sim.state.run (ns.map (.report id))).callsOf id = [{ plan := w.plan }] := by
  rw [callsOf_congr (frame_reports sim.state id ns).2]
  obtain rfl := id_of_worker? hw
  exact (hs.callsOf_calling hw hcalling).2

/-- An activity that has to wait again has performed some more of its program. -/
theorem Attends.drive_inl {a' : Activity}
    (hpoll : a.poll sim.state.clock w.cancelled = (passed, .inl a')) :
    (sim.drive id).Attends id (reports ++ Executor.reportsOf passed) := by
  obtain ⟨activities, hdrive, -, next, hnext, hwhich⟩ := Simulation.drive_inl hw ha hpoll
  obtain ⟨b, call, hb, hperforms⟩ := h.calling w hw hcalling
  obtain rfl := Option.some.inj (ha.symm.trans hb)
  have hgoes : next.Performs (sim.executor.program call w.plan)
      (reports ++ Executor.reportsOf passed) := by
    rcases hwhich with rfl | ⟨rfl, rfl⟩
    · exact hperforms.poll_inl hpoll
    · rw [show Executor.reportsOf [] = [] from rfl, List.append_nil]
      exact hperforms
  have hone := callsOf_told hw ha h hs hcalling (Executor.reportsOf passed)
  rw [hdrive]
  refine ⟨fun c hc => ?_, fun v hv _ => ⟨next, call, hnext, ?_⟩, fun hempty => ?_⟩
  · obtain rfl := List.mem_singleton.mp (hone ▸ hc)
    exact ⟨call, hgoes.performance⟩
  · rw [worker?, (frame_reports sim.state id _).1] at hv
    obtain rfl := Option.some.inj (hw.symm.trans hv)
    exact hgoes
  · rw [hone] at hempty
    cases hempty

/-- An activity that returns has performed all of its program. -/
theorem Attends.drive_inr {result : Executor.Result}
    (hpoll : a.poll sim.state.clock w.cancelled = (passed, .inr result)) :
    (sim.drive id).Attends id (reports ++ Executor.reportsOf passed) := by
  obtain ⟨b, call, hb, hperforms⟩ := h.calling w hw hcalling
  obtain rfl := Option.some.inj (ha.symm.trans hb)
  let told := sim.state.run ((Executor.reportsOf passed).map (.report id))
  have hworker : told.worker? id = some w := by
    rw [worker?, (frame_reports sim.state id _).1]
    exact hw
  obtain ⟨outcome, hfinish⟩ := finish_of_calling result hworker hcalling
  have hone : (told.finish id result).callsOf id = [{ plan := w.plan, result := some result }] := by
    rw [hfinish, setPhase, callsOf_withWorker, callsOf_withResult, if_pos rfl,
      callsOf_told hw ha h hs hcalling]
    rfl
  have hsettling : (told.finish id result).worker? id = some { w with phase := .settling outcome } := by
    rw [hfinish]
    exact worker?_withWorker_self hworker fun _ => rfl
  rw [Simulation.drive_inr hw ha hpoll]
  refine ⟨fun c hc => ?_, fun v hv hphase => ?_, fun hempty => ?_⟩
  · obtain rfl := List.mem_singleton.mp (hone ▸ hc)
    exact ⟨call, hperforms.poll_inr hpoll⟩
  · obtain rfl := Option.some.inj (hsettling.symm.trans hv)
    cases hphase
  · rw [hone] at hempty
    cases hempty

end Calling

/-- An activity performs as much of its program as is heard of it. -/
theorem Attends.drive_self (h : sim.Attends id reports) (hs : sim.state.Coherent) :
    (sim.drive id).Attends id (reports ++ sim.state.reports id
      ((Executor.reportsOf (a.poll sim.state.clock w.cancelled).1).map (.report id))) := by
  rw [reports_map_report]
  cases hcalling : isCalling w.phase with
  | false =>
    have hunheard : ¬ (sim.state.workerIn? id isCalling).isSome := by
      simp [workerIn?, hw, Option.filter, hcalling]
    rw [if_neg fun heard => hunheard heard.2, List.append_nil]
    exact h.drive_idle hw ha hcalling
  | true =>
    rw [if_pos ⟨rfl, by rw [workerIn?_eq_some_iff.mpr ⟨hw, hcalling⟩]; rfl⟩]
    cases hpoll : a.poll sim.state.clock w.cancelled with
    | mk passed next =>
      cases next with
      | inl a' => exact h.drive_inl hw ha hs hcalling hpoll
      | inr result => exact h.drive_inr hw ha hs hcalling hpoll

/-- What an activity does is a run: its reports, and then its return. -/
theorem exists_drive_run : (sim.drive id).executor = sim.executor ∧
    ∃ last : List Event, (∀ id' n, .report id' n ∉ last) ∧
      (sim.drive id).state = sim.state.run
        ((Executor.reportsOf (a.poll sim.state.clock w.cancelled).1).map (.report id) ++ last) := by
  cases hpoll : a.poll sim.state.clock w.cancelled with
  | mk passed next =>
    cases next with
    | inl a' =>
      obtain ⟨activities, hdrive, -⟩ := drive_inl hw ha hpoll
      exact ⟨by rw [hdrive], [], by simp, by rw [hdrive, List.append_nil]⟩
    | inr result =>
      refine ⟨by rw [drive_inr hw ha hpoll], [.finish id result], by simp, ?_⟩
      rw [drive_inr hw ha hpoll, run_append]
      rfl

end Drive

end Simulation
end FirewallRollout.Rebuild
