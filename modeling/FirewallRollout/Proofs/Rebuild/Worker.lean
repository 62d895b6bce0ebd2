import FirewallRollout.Proofs.Registry.Lookup
import FirewallRollout.Proofs.Task.Life
import FirewallRollout.Rebuild.Event

/-!
# Workers and tasks under a change

What is found after one worker or one task has changed, and what is the same as before.
-/
namespace FirewallRollout.Rebuild.State

theorem id_of_worker? {s : State} {id : String} {w : Worker} (h : s.worker? id = some w) :
    w.task.id = id :=
  Keyed.key_of_find? (fun w : Worker => w.task.id) h

theorem worker?_withWorker (s : State) (id : String) (change : Worker → Worker)
    (hkeep : ∀ w, (change w).task = w.task) (id' : String) :
    (s.withWorker id change).worker? id' =
      if id' = id then (s.worker? id).map change else s.worker? id' :=
  Keyed.find?_map_at (fun w : Worker => w.task.id) s.workers change
    (fun w => by rw [hkeep]) id id'

theorem worker?_withWorker_self {s : State} {id : String} {w : Worker} {change : Worker → Worker}
    (h : s.worker? id = some w) (hkeep : ∀ w, (change w).task = w.task) :
    (s.withWorker id change).worker? id = some (change w) := by
  rw [worker?_withWorker s id change hkeep, if_pos rfl, h, Option.map_some]

section Frame
variable (s : State) (id : String) (change : Worker → Worker)

@[simp] theorem settings_withWorker : (s.withWorker id change).settings = s.settings := rfl

@[simp] theorem registry_withWorker : (s.withWorker id change).registry = s.registry := rfl

@[simp] theorem leases_withWorker : (s.withWorker id change).leases = s.leases := rfl

@[simp] theorem fingerprints_withWorker :
    (s.withWorker id change).fingerprints = s.fingerprints := rfl

@[simp] theorem calls_withWorker : (s.withWorker id change).calls = s.calls := rfl

@[simp] theorem shuttingDown_withWorker :
    (s.withWorker id change).shuttingDown = s.shuttingDown := rfl

end Frame

/-- The workers after a shutdown has begun: the same, with their tokens cancelled. -/
theorem worker?_shutDown (s : State) (id : String) :
    s.shutDown.worker? id = (s.worker? id).map fun w => { w with cancelled := true } := by
  simp only [worker?, shutDown, List.find?_map]
  rfl

/-- A worker that comes last is found if no other has its task. -/
theorem worker?_append {s s' : State} {w : Worker} (h : s'.workers = s.workers ++ [w])
    (id : String) :
    s'.worker? id = (s.worker? id).or (if id = w.task.id then some w else none) := by
  rw [worker?, h, List.find?_append]
  by_cases hid : id = w.task.id
  · simp [hid, worker?]
  · simp [hid, Ne.symm hid, worker?]

/-- Workers other than those of one task are found as before. -/
theorem worker?_filter {s s' : State} {id : String}
    (h : s'.workers = s.workers.filter (·.task.id != id)) (id' : String) :
    s'.worker? id' = if id' = id then none else s.worker? id' := by
  rw [worker?, h]
  exact Keyed.find?_filter_ne (fun w : Worker => w.task.id) s.workers id id'

/-- A token is found as long as its worker is. -/
theorem lookup_tokens (s : State) (id : String) :
    s.tokens.lookup id = (s.worker? id).map (·.cancelled) := by
  rw [tokens, worker?]
  induction s.workers with
  | nil => rfl
  | cons w rest ih =>
    rw [List.map_cons, List.lookup_cons, List.find?_cons, Bool.beq_comm (a := id)]
    cases w.task.id == id with
    | true => rfl
    | false => exact ih

theorem hasEnded_eq_false_iff {s : State} {id : String} :
    s.hasEnded id = false ↔ ∃ e, s.registry.find? id = some e ∧ e.task.isTerminal = false := by
  unfold hasEnded
  cases s.registry.find? id <;> simp

theorem hasEnded_of_get {s : State} {id : String} {u : Task} (h : s.registry.get id = .ok u) :
    s.hasEnded id = u.isTerminal := by
  obtain ⟨e, he, rfl⟩ := Registry.get_eq_ok_iff.mp h
  rw [hasEnded, he]

theorem hasEnded_congr {s s' : State} {id : String} (h : s'.registry = s.registry) :
    s'.hasEnded id = s.hasEnded id := by
  rw [hasEnded, h, hasEnded]

theorem hasEnded_amend {s s' : State} {id id' : String} {e : Registry.Entry} {t : Task}
    (he : s.registry.find? id' = some e) (ht : t.id = e.task.id)
    (h : s'.registry = s.registry.amend e t) :
    s'.hasEnded id = if id = id' then t.isTerminal else s.hasEnded id := by
  unfold hasEnded
  rw [h, Registry.find?_amend he ht]
  by_cases hid : id = id' <;> simp [hid]

theorem withTask?_eq_some_iff {s s' : State} {id : String}
    {change : Task → Except Task.Refusal Unit × Task} :
    s.withTask? id change = some s' ↔ ∃ e t, s.registry.find? id = some e ∧
      change e.task = (.ok (), t) ∧ s' = { s with registry := s.registry.amend e t } := by
  rw [withTask?]
  constructor
  · intro h
    split at h
    · next registry hupdate =>
      obtain ⟨e, t, he, hchange, rfl⟩ := Registry.update_eq_ok_iff.mp hupdate
      exact ⟨e, t, he, Task.reported_eq_ok_iff.mp hchange, (Option.some.inj h).symm⟩
    · cases h
  · rintro ⟨e, t, he, hchange, rfl⟩
    rw [Registry.update_eq_ok_iff.mpr ⟨e, t, he, Task.reported_eq_ok_iff.mpr hchange, rfl⟩]

theorem withTask?_eq_none {s : State} {id : String} {change : Task → Except Task.Refusal Unit × Task}
    (h : s.withTask? id change = none) {e : Registry.Entry} (he : s.registry.find? id = some e) :
    ∃ refusal, (change e.task).1 = .error refusal := by
  cases hc : (change e.task).1 with
  | ok =>
    rw [withTask?_eq_some_iff.mpr ⟨e, _, he, Prod.ext hc rfl, rfl⟩] at h
    cases h
  | error refusal => exact ⟨refusal, rfl⟩

theorem workerIn?_eq_some_iff {s : State} {id : String} {inPhase : Phase → Bool} {w : Worker} :
    s.workerIn? id inPhase = some w ↔ s.worker? id = some w ∧ inPhase w.phase = true :=
  Option.filter_eq_some_iff

theorem isCalling_iff {p : Phase} :
    isCalling p = true ↔ (∃ deadline, p = .executing deadline) ∨ ∃ o limit, p = .winding o limit := by
  cases p <;> simp [isCalling]

theorem stopOutcome_ne_applied (s : State) (id : String) : s.stopOutcome id ≠ .applied := by
  unfold stopOutcome
  split <;> simp

end FirewallRollout.Rebuild.State
