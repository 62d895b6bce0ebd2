import FirewallRollout.Proofs.Rebuild.Turns
import FirewallRollout.Rebuild.Simulation

/-!
# Time goes by

Every simulation is a run of the orchestrator, in which each worker has its turn whenever it has
something to do. So the clock goes on for as long as is asked, from every state and with every
executor: time never stands still.
-/
namespace FirewallRollout.Rebuild

namespace Simulation
open State
variable (now : Int64)

theorem state_start (sim : Simulation) (id : String) : (sim.start id).state = sim.state.start id := by
  unfold start
  dsimp only
  split <;> rfl

theorem take_reports (sim : Simulation) (id : String) (ns : List UInt32) :
    ns.foldl (fun sim n => sim.take (.report id n)) sim =
      { sim with state := sim.state.run (ns.map (.report id)) } := by
  induction ns generalizing sim with
  | nil => rfl
  | cons n ns ih => exact ih (sim.take (.report id n))

/-- An activity that goes on reports some numbers, and may then return. -/
theorem state_drive (sim : Simulation) (id : String) :
    ∃ (ns : List UInt32) (ending : Option Executor.Result),
      (sim.drive id).state = ending.elim (sim.state.run (ns.map (.report id)))
        ((sim.state.run (ns.map (.report id))).finish id) := by
  unfold drive
  split
  · next activity w _ _ =>
    refine ⟨Executor.reportsOf (activity.poll sim.state.clock w.cancelled).1, ?_⟩
    dsimp only
    rw [take_reports]
    split
    · refine ⟨none, ?_⟩
      split <;> rfl
    · next result _ => exact ⟨some result, rfl⟩
  · exact ⟨[], none, rfl⟩

theorem serves_drive (sim : Simulation) (id : String) : Serves id sim.state (sim.drive id).state := by
  obtain ⟨ns, ending, hstate⟩ := sim.state_drive id
  have hreports : ∀ (ns : List UInt32) (s : State), Serves id s (s.run (ns.map (.report id))) := by
    intro ns
    induction ns with
    | nil => exact fun s => .refl id s
    | cons n ns ih => exact fun s => (serves_report s id n).trans (ih _)
  rw [hstate]
  cases ending with
  | none => exact hreports ns _
  | some result => exact (hreports ns _).trans (serves_finish _ id result)

theorem reached_drive {sim : Simulation} {id : String} {m : Nat} (hm : m ≤ 4)
    (h : sim.state.Reached id m) : (sim.drive id).state.Reached id m := by
  obtain ⟨ns, ending, hstate⟩ := sim.state_drive id
  have hreports : ∀ (ns : List UInt32) (s : State), s.Reached id m →
      (s.run (ns.map (.report id))).Reached id m := by
    intro ns
    induction ns with
    | nil => exact fun s hs => hs
    | cons n ns ih => exact fun s hs => ih _ (reached_report hs n)
  rw [hstate]
  cases ending with
  | none => exact hreports ns _ h
  | some result => exact reached_finish (hreports ns _ h) hm result

theorem state_dropIdle (sim : Simulation) (id : String) : (sim.dropIdle id).state = sim.state := by
  unfold dropIdle
  split <;> rfl

/-- A step in the turn of a task, which takes its worker some way further. -/
theorem turn_take {sim : Simulation} {id : String} {s : State} {n : Nat} (e : Event)
    (h : Serves id s sim.state) (hserves : Serves id sim.state (sim.state.step e))
    (hreached : (sim.state.step e).Reached id n) :
    Serves id s (sim.take e).state ∧ (sim.take e).state.Reached id n :=
  ⟨h.trans hserves, hreached⟩

/-- The turn of a task: its worker has nothing more to do at this moment. -/
theorem serves_serve (sim : Simulation) (id : String) :
    Serves id sim.state (sim.serve now id).state ∧ (sim.serve now id).state.Reached id 6 := by
  have hstarted : Serves id sim.state (sim.start id).state ∧ (sim.start id).state.Reached id 1 := by
    rw [state_start]
    exact ⟨serves_start sim.state id, reached_start sim.state id⟩
  have hdriven := hstarted.1.trans (serves_drive (sim.start id) id)
  have hexpired := turn_take (.expire id) hdriven (serves_expire _ id)
    (reached_expire (reached_drive (by decide) hstarted.2))
  have hnoticed := turn_take (.notice id) hexpired.1 (serves_notice _ id)
    (reached_notice hexpired.2)
  let noticed := (((sim.start id).drive id).take (.expire id)).take (.notice id)
  have habandoned := turn_take (.abandon id) (hnoticed.1.trans (serves_drive noticed id))
    (serves_abandon _ id) (reached_abandon (reached_drive (by decide) hnoticed.2))
  let stopped := ((noticed.drive id).take (.abandon id)).dropIdle id
  have hstopped : Serves id sim.state stopped.state ∧ stopped.state.Reached id 4 := by
    rw [state_dropIdle]
    exact habandoned
  have hsettled := turn_take (.settle id now) hstopped.1 (serves_settle _ id now)
    (reached_settle hstopped.2 now)
  exact turn_take (.release id) hsettled.1 (serves_release _ id) (reached_release hsettled.2)

/-- What is done when some tasks have their turns. -/
structure Served (ids : List String) (s s' : State) : Prop where
  steps : s.LeadsTo s'
  clock : s'.clock = s.clock
  others : ∀ {id}, id ∉ ids → s'.worker? id = s.worker? id
  reached : ∀ {id}, id ∈ ids → s'.Reached id 6

theorem served_foldl (ids : List String) (sim : Simulation) :
    Served ids sim.state (ids.foldl (serve now) sim).state := by
  induction ids generalizing sim with
  | nil => exact ⟨.refl _, rfl, fun _ => rfl, fun h => by cases h⟩
  | cons id ids ih =>
    obtain ⟨hserves, hreached⟩ := sim.serves_serve now id
    have hrest := ih (sim.serve now id)
    rw [List.foldl_cons]
    refine ⟨hserves.steps.trans hrest.steps, hrest.clock.trans hserves.clock,
      fun {id'} hid' => ?_, fun {id'} hid' => ?_⟩
    · rw [List.mem_cons, not_or] at hid'
      exact (hrest.others hid'.2).trans (hserves.others hid'.1)
    · by_cases hlater : id' ∈ ids
      · exact hrest.reached hlater
      · obtain rfl := (List.mem_cons.mp hid').resolve_right hlater
        -- nothing happens to it in the turns of others
        intro w hw
        rw [hrest.others hlater] at hw
        rw [hrest.clock]
        exact hreached w hw

/-- Every worker has its turn. -/
theorem mem_turns {sim : Simulation} {id : String} {w : Worker} (hw : sim.state.worker? id = some w) :
    id ∈ sim.turns := by
  have hmem : id ∈ sim.state.workers.map (·.task.id) :=
    List.mem_map.mpr ⟨w, List.mem_of_find?_eq_some hw, id_of_worker? hw⟩
  by_cases hwaiting : id ∈ sim.activities.map Prod.fst
  · exact List.mem_append_left _ hwaiting
  · refine List.mem_append_right _ (List.mem_filter.mpr ⟨hmem, ?_⟩)
    simpa using hwaiting

theorem served_serveAll (sim : Simulation) :
    sim.state.LeadsTo (sim.serveAll now).state ∧
      (sim.serveAll now).state.clock = sim.state.clock ∧
      ∀ id, (sim.serveAll now).state.Reached id 6 := by
  have hserved := served_foldl now sim.turns sim
  refine ⟨hserved.steps, hserved.clock, fun id => ?_⟩
  by_cases hid : id ∈ sim.turns
  · exact hserved.reached hid
  · intro w hw
    rw [serveAll, hserved.others hid] at hw
    exact absurd (mem_turns hw) hid

/-- Until the next moment at which one of them has something to do, nothing keeps the clock. -/
theorem mayPass_nextWait {sim : Simulation} (hdistinct : sim.state.OneWorkerEach)
    (hreached : ∀ id, sim.state.Reached id 6) {wait ms : Nat} (hle : wait ≤ sim.nextWait ms) :
    sim.state.mayPass wait = true := by
  refine mayPass_of_reached hdistinct hreached fun w hw limit hlimit hlater => ?_
  let moments := sim.state.workers.filterMap Worker.deadline? ++
    sim.activities.filterMap fun a => a.2.wake?
  have hmem : limit ∈ moments := List.mem_append_left _ (List.mem_filterMap.mpr ⟨w, hw, hlimit⟩)
  obtain ⟨due, hdue⟩ := Option.isSome_iff_exists.mp (List.isSome_min?_of_mem hmem)
  have hfirst : due ≤ limit := (List.min?_eq_some_iff.mp hdue).2 limit hmem
  have hwait : sim.nextWait ms = max 1 (due - sim.state.clock) := by
    rw [nextWait, nextDue?, hdue, Option.elim_some]
  omega

theorem clock_take_pass {sim : Simulation} {ms : Nat} (h : sim.state.mayPass ms = true) :
    (sim.take (.pass ms)).state.clock = sim.state.clock + ms := by
  simp [Simulation.take, State.step, State.pass, h]

/-- Time goes by as asked. -/
theorem clock_elapse {sim : Simulation} (hs : sim.state.Orderly)
    (hreached : ∀ id, sim.state.Reached id 6) (ms : Nat) :
    sim.state.LeadsTo (sim.elapse now ms).state ∧
      (sim.elapse now ms).state.clock = sim.state.clock + ms := by
  induction ms using Nat.strong_induction_on generalizing sim with
  | _ ms ih =>
    have hpass : ∀ {wait}, wait ≤ sim.nextWait ms →
        (sim.take (.pass wait)).state.clock = sim.state.clock + wait :=
      fun hle => clock_take_pass (mayPass_nextWait hs.distinct hreached hle)
    unfold elapse
    split
    · next hlast => exact ⟨sim.state.leadsTo_step (.pass ms), hpass hlast⟩
    · next hmore =>
      let passed := sim.take (.pass (sim.nextWait ms))
      obtain ⟨hsteps, hclock, hserved⟩ := passed.served_serveAll now
      have hled : sim.state.LeadsTo (passed.serveAll now).state :=
        (sim.state.leadsTo_step (.pass (sim.nextWait ms))).trans hsteps
      obtain ⟨hrest, hend⟩ :=
        ih (ms - sim.nextWait ms) (sub_nextWait_lt hmore) (hs.leadsTo hled) hserved
      refine ⟨hled.trans hrest, ?_⟩
      have hwaited : passed.state.clock = sim.state.clock + sim.nextWait ms := hpass (Nat.le_refl _)
      rw [hend, hclock, hwaited]
      omega

/-- From every state and with every executor, the clock reaches every later moment. -/
theorem clock_advance {sim : Simulation} (hs : sim.state.Orderly) (ms : Nat) :
    sim.state.LeadsTo (sim.advance now ms).state ∧
      (sim.advance now ms).state.clock = sim.state.clock + ms := by
  obtain ⟨hsteps, hclock, hserved⟩ := sim.served_serveAll now
  unfold advance
  dsimp only
  split
  · next hzero => exact ⟨hsteps, by rw [hclock, hzero, Nat.add_zero]⟩
  · obtain ⟨helapsed, hend⟩ := clock_elapse now (hs.leadsTo hsteps) hserved ms
    obtain ⟨hlast, hclock', -⟩ := ((sim.serveAll now).elapse now ms).served_serveAll now
    exact ⟨(hsteps.trans helapsed).trans hlast, by rw [hclock', hend, hclock]⟩

end Simulation

end FirewallRollout.Rebuild
