import FirewallRollout.Proofs.Rebuild.Jobs

/-!
# What a worker leaves behind

A worker goes away only after its task has ended, and takes the lease of its task along. So where there
is no worker, there is nothing left of its rebuild but the task itself and the history of its call.
-/
namespace FirewallRollout.Rebuild

namespace State

/-- A task that has not ended has a worker. -/
def Attended (s : State) (id : String) : Prop := s.hasEnded id = true ∨ ∃ w, s.worker? id = some w

/-- Every lease belongs to a worker for its server. -/
def LeasesAttended (s : State) : Prop :=
  ∀ {server id}, s.leases.lookup server = some id →
    ∃ w, s.worker? id = some w ∧ w.task.server = server

theorem leasesAttended_initial (settings : Settings) (inventory : Inventory) (registry : Registry) :
    (initial settings inventory registry).LeasesAttended := by
  intro server id hlease
  cases hlease

/-- No task has two workers. -/
def OneWorkerEach (s : State) : Prop := (s.workers.map (·.task.id)).Nodup

theorem OneWorkerEach.withWorker {s s₁ : State} (h : s.OneWorkerEach)
    (hworkers : s₁.workers = s.workers) {id : String} {change : Worker → Worker}
    (hkeep : ∀ w, (change w).task = w.task) : (s₁.withWorker id change).OneWorkerEach := by
  have hids : (s₁.withWorker id change).workers.map (·.task.id) = s.workers.map (·.task.id) := by
    simp only [State.withWorker, hworkers, List.map_map]
    apply List.map_congr_left
    intro w _
    simp only [Function.comp]
    split
    · rw [hkeep]
    · rfl
  rw [OneWorkerEach, hids]
  exact h

theorem exists_worker?_withWorker {s s₁ : State} {id id' : String} {change : Worker → Worker}
    {w : Worker} (hw : s.worker? id = some w) (hworkers : s₁.workers = s.workers)
    (hkeep : ∀ w, (change w).task = w.task) :
    ∃ w', (s₁.withWorker id' change).worker? id = some w' ∧ w'.task = w.task := by
  have hw₁ : s₁.worker? id = some w := by rw [← hw, worker?, worker?, hworkers]
  rw [worker?_withWorker _ _ _ hkeep]
  split
  · next hid =>
    subst hid
    exact ⟨change w, by rw [hw₁, Option.map_some], hkeep w⟩
  · exact ⟨w, hw₁, rfl⟩

end State

namespace Effect
open State
variable {s s' : State}

/-- A worker goes on, or it lets go of everything. -/
theorem worker_persists (h : Effect s s') {id : String} {w : Worker} (hw : s.worker? id = some w) :
    (∃ w', s'.worker? id = some w' ∧ w'.task = w.task) ∨
      w.phase = .releasing ∧ s'.leases.lookup w.task.server ≠ some id := by
  have hstay : ∀ {r : State}, r.workers = s.workers → ∃ w', r.worker? id = some w' ∧
      w'.task = w.task := by
    intro r hworkers
    exact ⟨w, by rw [← hw, worker?, worker?, hworkers], rfl⟩
  cases h with
  | nothing => exact .inl (hstay rfl)
  | refused => exact .inl (hstay rfl)
  | edited inventory => exact .inl (hstay rfl)
  | reported n found phase entry => exact .inl (hstay rfl)
  | passed ms allowed => exact .inl (hstay rfl)
  | shutDown =>
    rw [worker?_shutDown, hw]
    exact .inl ⟨_, rfl, rfl⟩
  | triggered accepting free scripted counted created =>
    rw [worker?_append (s := s) rfl, hw]
    exact .inl ⟨w, rfl, rfl⟩
  | @released v found phase =>
    rw [worker?_filter (s := s) rfl]
    split
    · next hid =>
      subst hid
      obtain rfl := Option.some.inj (found.symm.trans hw)
      refine .inr ⟨phase, ?_⟩
      dsimp only
      split
      · simp
      · next hother => simpa using hother
    · exact .inl ⟨w, hw, rfl⟩
  | _ => exact .inl (exists_worker?_withWorker hw rfl fun _ => rfl)

/-- A task that has ended stays so. -/
theorem hasEnded_eq_true (h : Effect s s') (hs : s.Coherent) {id : String} {e : Registry.Entry}
    (he : s.registry.find? id = some e) (hended : s.hasEnded id = true) : s'.hasEnded id = true := by
  cases hactive : s'.hasEnded id with
  | true => rfl
  | false => rw [h.hasEnded_eq_false hs he hactive] at hended; cases hended

theorem attended (h : Effect s s') (hs : s.Coherent) {id : String} {e : Registry.Entry}
    (he : s.registry.find? id = some e) (hattended : s.Attended id) : s'.Attended id := by
  rcases hattended with hended | ⟨w, hw⟩
  · exact .inl (h.hasEnded_eq_true hs he hended)
  · rcases h.worker_persists hw with ⟨w', hw', -⟩ | ⟨hphase, -⟩
    · exact .inr ⟨w', hw'⟩
    · exact .inl (h.hasEnded_eq_true hs he (hs.hasEnded_of_releasing hw hphase))

/-- A lease was there before, or it is that of the worker of a new task. -/
theorem lease_origin (h : Effect s s') (hs : s.Coherent) {server id : String}
    (hlease : s'.leases.lookup server = some id) :
    s.leases.lookup server = some id ∨ s.registry.find? id = none ∧
      ∃ w, s'.worker? id = some w ∧ w.task.server = server := by
  cases h with
  | @triggered server' id' force now script total registry accepting free scripted counted created =>
    dsimp only at hlease
    split at hlease
    · exact .inl hlease
    rw [Assoc.lookup_put] at hlease
    split at hlease
    · next hserver =>
      obtain rfl := Option.some.inj hlease
      have hfree := (Registry.create_ok created).2.1
      have hnone : s.worker? id' = none := by
        cases hw : s.worker? id' with
        | none => rfl
        | some w => exact absurd hfree (hs.registered_of_worker? hw)
      refine .inr ⟨hfree, { task := .create id' server' total force now, script,
                            unchanged := !force && s.isUnchanged script }, ?_, hserver.symm⟩
      rw [worker?_append (s := s) rfl, hnone, Option.none_or]
      exact if_pos rfl
    · exact .inl hlease
  | released found phase =>
    dsimp only at hlease
    split at hlease
    · rw [Assoc.lookup_erase] at hlease
      split at hlease
      · cases hlease
      · exact .inl hlease
    · exact .inl hlease
  | _ => exact .inl hlease

theorem leasesAttended (h : Effect s s') (hs : s.Coherent) (hleases : s.LeasesAttended) :
    s'.LeasesAttended := by
  intro server id hlease
  rcases h.lease_origin hs hlease with hbefore | ⟨-, hnew⟩
  · obtain ⟨w, hw, rfl⟩ := hleases hbefore
    rcases h.worker_persists hw with ⟨w', hw', htask⟩ | ⟨-, hother⟩
    · exact ⟨w', hw', by rw [htask]⟩
    · exact absurd hlease hother
  · exact hnew

theorem oneWorkerEach (h : Effect s s') (hs : s.Coherent) (hone : s.OneWorkerEach) :
    s'.OneWorkerEach := by
  cases h with
  | nothing => exact hone
  | refused => exact hone
  | edited inventory => exact hone
  | reported n found phase entry => exact hone
  | passed ms allowed => exact hone
  | shutDown => simpa [OneWorkerEach, State.shutDown, Function.comp_def] using hone
  | released found phase => exact hone.sublist (List.filter_sublist.map _)
  | @triggered server id force now script total registry accepting free scripted counted created =>
    simp only [OneWorkerEach, List.map_append, List.map_cons, List.map_nil]
    refine List.nodup_append.mpr ⟨hone, by simp, ?_⟩
    rintro id₁ hid₁ id₂ hid₂ rfl
    obtain ⟨w, hw, rfl⟩ := List.mem_map.mp hid₁
    have hfound : s.worker? w.task.id = some w :=
      Keyed.find?_of_mem (fun w : Worker => w.task.id) hone hw
    rw [List.mem_singleton.mp hid₂] at hfound
    exact hs.registered_of_worker? hfound (Registry.create_ok created).2.1
  | _ => exact hone.withWorker rfl fun _ => rfl

end Effect

end FirewallRollout.Rebuild
