import FirewallRollout.Proofs.Rebuild.Applied

/-!
# Runs of whole steps

Where nothing comes between the parts of a step, an interleaving is a run of whole steps, as on a
single thread, and no move of it is late: a worker begins a step of several parts only while its task
goes on, and so while its task has the slot.
-/
namespace FirewallRollout.Rebuild
namespace Interleaving
open State
variable {x y : Interleaving} {m : Move} {server id : String}

/-- One worker is in the middle of its step, if it has some parts left. -/
def amid (s : State) (id : String) (parts : List Part) : Interleaving :=
  { state := s, rest := if parts.isEmpty then [] else [(id, parts)] }

theorem proceed_amid (s : State) (id : String) (part : Part) (parts : List Part) :
    (amid s id (part :: parts)).proceed id = amid (s.carryOut part) id parts := by
  have hahead : (amid s id (part :: parts)).ahead id = part :: parts := by
    simp [amid, ahead]
  simp only [proceed, hahead]
  cases parts <;> simp [amid, leave, Assoc.erase, Assoc.put]

/-- A worker that is not disturbed does what is left of its step. -/
theorem run_amid (s : State) (id : String) (parts : List Part) {n : Nat} (h : parts.length ≤ n) :
    (amid s id parts).run (List.replicate n (.proceed id)) = { state := complete (s, parts) } := by
  induction n generalizing s parts with
  | zero =>
    obtain rfl := List.length_eq_zero_iff.mp (Nat.le_zero.mp h)
    rfl
  | succ n ih =>
    cases parts with
    | nil => exact ih s [] (Nat.zero_le n)
    | cons part parts =>
      rw [List.replicate_succ]
      refine Eq.trans ?_ (ih (s.carryOut part) parts (Nat.le_of_succ_le_succ h))
      rw [← proceed_amid]
      rfl

theorem length_enter_le (s : State) (id : String) : (s.enter id).2.length ≤ 2 := by
  unfold enter
  split
  · exact Nat.zero_le _
  split
  · exact Nat.zero_le _
  split <;> simp

theorem length_conclude_le (s : State) (id : String) (now : Int64) :
    (s.conclude id now).2.length ≤ 1 := by
  unfold conclude
  split
  · split
    · exact Nat.zero_le _
    · split <;> simp
  · exact Nat.zero_le _

/-- A whole step is an interleaving in which nothing comes between its parts. -/
theorem run_moves (s : State) (e : Event) : run { state := s } e.moves = { state := s.step e } := by
  cases e with
  | start id => exact run_amid _ id _ (length_enter_le s id)
  | settle id now => exact run_amid _ id _ (length_conclude_le s id now)
  | _ => rfl

theorem run_flatMap_moves (s : State) (events : List Event) :
    run { state := s } (events.flatMap Event.moves) = { state := s.run events } := by
  induction events generalizing s with
  | nil => rfl
  | cons e events ih =>
    rw [List.flatMap_cons, run_append, run_moves, ih]
    rfl

theorem lateIn_append (x : Interleaving) (server : String) (moves later : List Move) :
    x.LateIn server (moves ++ later) ↔ x.LateIn server moves ∨ (x.run moves).LateIn server later := by
  induction moves generalizing x with
  | nil => exact ⟨.inr, fun h => h.resolve_left id⟩
  | cons m moves ih =>
    rw [List.cons_append, LateIn, LateIn, ih, or_assoc]
    rfl

/-- Every worker in the middle of its step has the slot of its server. -/
def Timely (x : Interleaving) : Prop :=
  ∀ id, ∀ part ∈ x.ahead id, x.state.leases.lookup part.server = some id

theorem Timely.not_late (hx : x.Timely) (server : String) (m : Move) : ¬ x.Late server m := by
  rintro ⟨id, part, parts, -, hnext, rfl, -, hlease⟩
  exact hlease (hx id part (by rw [hnext]; exact List.mem_cons_self))

/-- A live worker that has begun its step has the slot. -/
theorem timely_of_begun (hx : x.Sequential) (hquiet : ∀ id, x.ahead id = []) {w : Worker}
    {parts : List Part} (hlive : x.state.Live w.task.id w)
    (hparts : ∀ part ∈ parts, part.server = w.task.server)
    (hleases : y.state.leases = x.state.leases)
    (hahead : ∀ id, y.ahead id = if id = w.task.id then parts else x.ahead id) : y.Timely := by
  intro id part hpart
  rw [hahead] at hpart
  split at hpart
  · next hid =>
    rw [hleases, hparts part hpart, hid]
    exact (hx.holds hlive).2.2
  · rw [hquiet] at hpart
    cases hpart

theorem Advance.timely (h : Advance x m y) (hx : x.Sequential) (hquiet : ∀ id, x.ahead id = []) :
    y.Timely := by
  have hnone : (∀ id, y.ahead id = x.ahead id) → y.Timely := by
    intro hsame id part hpart
    rw [hsame, hquiet] at hpart
    cases hpart
  cases h with
  | whole effect length fingerprints ahead busy => exact hnone ahead
  | entered deadline found free phase entry pending unchanged timed state ahead =>
    refine timely_of_begun hx hquiet (live_of_entry found entry ?_) ?_ (by rw [state]; rfl) ahead
    · exact Task.isTerminal_eq_false_iff.mpr (.inl pending)
    · simp [Part.server, Worker.plan, (hx.scripted found).server_eq]
  | concluded now found free phase entry recorded state ahead =>
    refine timely_of_begun hx hquiet (live_of_entry found entry ?_) ?_ (by rw [state]; rfl) ahead
    · exact (settleTask_ok recorded).1
    · simp [Part.server]
  | @proceeded id part parts own next state ahead =>
    rw [hquiet] at next
    cases next
  | waited ms moved =>
    exact hnone fun _ => by rw [moved]; rfl

theorem Timely.proceed (hx : x.Timely) (id : String) : (x.proceed id).Timely := by
  unfold Interleaving.proceed
  split
  · exact hx
  next part parts hnext =>
  intro id' part' hpart'
  have hleases : (x.state.carryOut part).leases = x.state.leases := by cases part <;> rfl
  have hahead : part' ∈ x.ahead id' := by
    rw [ahead, getD_lookup_leave] at hpart'
    split at hpart'
    · next hid =>
      rw [hid, hnext]
      exact List.mem_cons_of_mem _ hpart'
    · exact hpart'
  rw [hleases]
  exact hx id' part' hahead

theorem Timely.not_lateIn_replicate (hx : x.Timely) (server id : String) (n : Nat) :
    ¬ x.LateIn server (List.replicate n (.proceed id)) := by
  induction n generalizing x with
  | zero => exact not_false
  | succ n ih =>
    rw [List.replicate_succ]
    exact not_or.mpr ⟨hx.not_late server _, ih (hx.proceed id)⟩

/-- Nothing in a whole step is late. -/
theorem not_lateIn_moves {s : State} (hs : s.Sequential) (server : String) (e : Event) :
    ¬ LateIn { state := s } server e.moves := by
  have hquiet : Timely { state := s } := by
    intro id part hpart
    cases hpart
  have hbegun : ∀ (id : String) (n : Nat),
      ¬ LateIn { state := s } server (.step e :: List.replicate n (.proceed id)) := by
    intro id n
    refine not_or.mpr ⟨hquiet.not_late server _, Timely.not_lateIn_replicate ?_ server id n⟩
    rcases move_advance { state := s } (.step e) with hsame | h
    · rw [hsame]
      exact hquiet
    · exact h.timely (sequential_of_state hs) fun _ => rfl
  cases e with
  | start id => exact hbegun id 2
  | settle id now => exact hbegun id 1
  | _ => exact hbegun "" 0

theorem not_lateIn_flatMap_moves {s : State} (hs : s.Sequential) (server : String)
    (events : List Event) : ¬ LateIn { state := s } server (events.flatMap Event.moves) := by
  induction events generalizing s with
  | nil => exact not_false
  | cons e events ih =>
    rw [List.flatMap_cons, lateIn_append, run_moves]
    exact not_or.mpr ⟨not_lateIn_moves hs server e, ih ((s.step_effect e).sequential hs)⟩

end Interleaving
end FirewallRollout.Rebuild
