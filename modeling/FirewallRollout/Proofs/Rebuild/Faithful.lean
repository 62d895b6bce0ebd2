import FirewallRollout.Proofs.Rebuild.Performing

/-!
# Simulations are faithful

Every simulation is a run in which the executor has performed its program in every call. So what is proved
of the runs in which an executor performs its program is proved of every simulation with it.
-/
namespace FirewallRollout.Rebuild
open Executor (Performance)

namespace State

/-- In a run an executor has performed its program in the call of a task. -/
def Performs (first : State) (executor : Executor) (id : String) (events : List Event) : Prop :=
  ∀ c ∈ (first.run events).callsOf id, ∃ call,
    Performance (executor.program call c.plan) (first.reports id events) c.result

end State

namespace Simulation
open State

/-- A simulation of a run in which an executor attends to every call. -/
def Faithful (sim : Simulation) (executor : Executor) (first : State) : Prop :=
  sim.executor = executor ∧
    ∃ events, sim.state = first.run events ∧ ∀ id, sim.Attends id (first.reports id events)

theorem Faithful.exists_run {sim : Simulation} {executor : Executor} {first : State}
    (h : sim.Faithful executor first) :
    ∃ events, sim.state = first.run events ∧ ∀ id, first.Performs executor id events := by
  obtain ⟨rfl, events, hstate, hattends⟩ := h
  refine ⟨events, hstate, fun id c hc => (hattends id).performs c ?_⟩
  rwa [hstate]

/-- Before the first call there is nothing to attend to. -/
theorem faithful_of_uncalled (first : State) (executor : Executor) (created : Nat)
    (hcalls : first.calls = []) (hworkers : ∀ w ∈ first.workers, isCalling w.phase = false) :
    (⟨first, executor, [], created⟩ : Simulation).Faithful executor first := by
  refine ⟨rfl, [], rfl, fun id => ⟨fun c hc => ?_, fun w hw hcalling => ?_, fun _ => rfl⟩⟩
  · simp [callsOf, hcalls] at hc
  · rw [hworkers w (List.mem_of_find?_eq_some hw)] at hcalling
    cases hcalling

section Steps
variable {sim : Simulation} {executor : Executor} {first : State} (h : sim.Faithful executor first)
include h

/-- A step that is not of the executor and starts no worker. -/
theorem Faithful.take {e : Event} (hstart : ∀ id, e ≠ .start id) (hreport : ∀ id n, e ≠ .report id n)
    (hfinish : ∀ id result, e ≠ .finish id result) : (sim.take e).Faithful executor first := by
  obtain ⟨hexecutor, events, hstate, hattends⟩ := h
  refine ⟨hexecutor, events ++ [e], ?_, fun id => ?_⟩
  · rw [run_append, ← hstate]
    rfl
  · rw [reports_snoc (hreport id)]
    exact (hattends id).take (hstart id) (hfinish id)

/-- An activity is dropped only when its call is over. -/
theorem Faithful.dropIdle (id : String) : (sim.dropIdle id).Faithful executor first := by
  obtain ⟨hexecutor, events, hstate, hattends⟩ := h
  unfold Simulation.dropIdle
  split
  · exact ⟨hexecutor, events, hstate, hattends⟩
  · next hidle =>
    refine ⟨hexecutor, events, hstate, fun id' => ?_⟩
    refine (hattends id').frame rfl rfl (fun w hw hcalling => ⟨w, hw, hcalling, rfl⟩)
      fun w hw hcalling => (Assoc.lookup_erase _ _ _).trans (if_neg ?_)
    rintro rfl
    rw [workerIn?_eq_some_iff.mpr ⟨hw, hcalling⟩] at hidle
    cases hidle

theorem Faithful.trigger (now : Int64) (server : String) (force : Bool) :
    (sim.trigger now server force).2.Faithful executor first := by
  have htaken := h.take (e := .trigger server force sim.freshId now) nofun (by simp) nofun
  have hstate : (sim.trigger now server force).2.state =
      (sim.take (.trigger server force sim.freshId now)).state := by
    unfold Simulation.trigger
    split <;> next heq => exact (congrArg Prod.snd heq).symm
  have hrest : (sim.trigger now server force).2.executor = sim.executor ∧
      (sim.trigger now server force).2.activities = sim.activities := by
    unfold Simulation.trigger
    split <;> exact ⟨rfl, rfl⟩
  obtain ⟨hexecutor, events, hrun, hattends⟩ := htaken
  refine ⟨hrest.1.trans hexecutor, events, hstate.trans hrun, fun id =>
    (hattends id).frame hrest.1 ?_ (fun w hw hcalling => ?_) fun _ _ _ => by rw [hrest.2]; rfl⟩
  · rw [hstate]
  · exact ⟨w, by rwa [hstate] at hw, hcalling, rfl⟩

variable (hfirst : first.Coherent)
include hfirst

theorem Faithful.coherent : sim.state.Coherent := by
  obtain ⟨-, events, hstate, -⟩ := h
  rw [hstate]
  exact hfirst.run events

theorem Faithful.start (id : String) : (sim.start id).Faithful executor first := by
  have hs := h.coherent hfirst
  obtain ⟨hexecutor, events, hstate, hattends⟩ := h
  have hrun : (sim.start id).state = first.run (events ++ [.start id]) := by
    rw [state_start, run_append, ← hstate]
    rfl
  refine ⟨(executor_start sim id).trans hexecutor, _, hrun, fun id' => ?_⟩
  rw [reports_snoc (by simp)]
  by_cases hid : id' = id
  · subst hid
    exact (hattends id').start_self hs
  · exact (hattends id').start_of_ne hid

/-- An activity that goes on reports what its program does, and may return as it does. -/
theorem Faithful.drive (id : String) : (sim.drive id).Faithful executor first := by
  have hs := h.coherent hfirst
  have hidle : sim.drive id = sim → (sim.drive id).Faithful executor first := fun hsame => by rwa [hsame]
  cases ha : sim.activities.lookup id with
  | none => exact hidle (by rw [Simulation.drive, ha])
  | some a =>
    cases hw : sim.state.worker? id with
    | none => exact hidle (by rw [Simulation.drive, ha, hw])
    | some w =>
      obtain ⟨hexecutor, events, hstate, hattends⟩ := h
      obtain ⟨hkept, last, hsilent, hdrive⟩ := exists_drive_run hw ha
      let told : List Event := (Executor.reportsOf (a.poll sim.state.clock w.cancelled).1).map (.report id)
      refine ⟨hkept.trans hexecutor, events ++ (told ++ last), ?_, fun id' => ?_⟩
      · exact hdrive.trans (by rw [first.run_append events, ← hstate])
      · have hlast : ∀ s : State, s.reports id' last = [] := fun _ => reports_eq_nil (hsilent id')
        rw [reports_append, reports_append, ← hstate, hlast, List.append_nil]
        by_cases hid : id' = id
        · subst hid
          exact (hattends id').drive_self hw ha hs
        · rw [reports_map_report, if_neg fun heard => hid heard.1.symm, List.append_nil]
          exact (hattends id').drive_of_ne hw ha hid

end Steps

section Turns
variable {sim : Simulation} {executor : Executor} {first : State} (hfirst : first.Coherent) (now : Int64)
include hfirst

theorem Faithful.serve (h : sim.Faithful executor first) (id : String) :
    (sim.serve now id).Faithful executor first := by
  have hstarted := (h.start hfirst id).drive hfirst id
  have hexpired := hstarted.take (e := .expire id) nofun (by simp) nofun
  have hnoticed := hexpired.take (e := .notice id) nofun (by simp) nofun
  have habandoned := (hnoticed.drive hfirst id).take (e := .abandon id) nofun (by simp) nofun
  have hsettled := (habandoned.dropIdle id).take (e := .settle id now) nofun (by simp) nofun
  exact hsettled.take (e := .release id) nofun (by simp) nofun

theorem Faithful.serveAll (h : sim.Faithful executor first) :
    (sim.serveAll now).Faithful executor first := by
  have hturns : ∀ (ids : List String) {sim : Simulation}, sim.Faithful executor first →
      (ids.foldl (Simulation.serve now) sim).Faithful executor first := by
    intro ids
    induction ids with
    | nil => exact fun h => h
    | cons id ids ih => exact fun h => ih (h.serve hfirst now id)
  exact hturns sim.turns h

theorem Faithful.elapse (h : sim.Faithful executor first) (ms : Nat) :
    (sim.elapse now ms).Faithful executor first := by
  induction ms using Nat.strong_induction_on generalizing sim with
  | _ ms ih =>
    have hpassed : ∀ wait, (sim.take (.pass wait)).Faithful executor first :=
      fun wait => h.take nofun (by simp) nofun
    unfold Simulation.elapse
    split
    · exact hpassed ms
    · next hmore => exact ih _ (sub_nextWait_lt hmore) ((hpassed _).serveAll hfirst now)

/-- Time goes by in a simulation as its executor performs. -/
theorem Faithful.advance (h : sim.Faithful executor first) (ms : Nat) :
    (sim.advance now ms).Faithful executor first := by
  unfold Simulation.advance
  dsimp only
  split
  · exact h.serveAll hfirst now
  · exact ((h.serveAll hfirst now).elapse hfirst now ms).serveAll hfirst now

theorem Faithful.drain (h : sim.Faithful executor first) (ms : Nat) :
    (sim.drain now ms).Faithful executor first := by
  induction ms using Nat.strong_induction_on generalizing sim with
  | _ ms ih =>
    unfold Simulation.drain
    split
    · exact h
    · next hmore =>
      refine ih _ ?_ ((h.serveAll hfirst now).elapse hfirst now _)
      simp only [pollInterval]
      omega

theorem Faithful.shutDown (h : sim.Faithful executor first) (ms : Nat) :
    (sim.shutDown now ms).Faithful executor first :=
  (h.take (e := .shutDown) nofun (by simp) nofun).drain hfirst now ms

end Turns

end Simulation
end FirewallRollout.Rebuild
