import FirewallRollout.Proofs.Task.Counters

/-!
# Driven tasks

A task under operations in any order and with any arguments, whatever they answer. Its counters, its
message and the moment of its end always agree with its status, and once it has ended it refuses
everything.
-/
namespace FirewallRollout.Task
variable {t u : Task}

/-- The task after operations that are tried one after the other. -/
def drive (t : Task) (steps : List Step) : Task := steps.foldl (fun t s => (t.step s).2) t

@[simp] theorem drive_nil (t : Task) : t.drive [] = t := rfl

@[simp] theorem drive_cons (t : Task) (s : Step) (steps : List Step) :
    t.drive (s :: steps) = (t.step s).2.drive steps := rfl

/-- An operation that is refused leaves the task as it is. -/
theorem step_error {s : Step} {refusal : Refusal} (h : (t.step s).1 = .error refusal) :
    (t.step s).2 = t := by
  have hsilent : ∀ {done : Except Refusal Unit × Task}, (silent done).1 = .error refusal →
      done.1 = .error refusal := by
    rintro ⟨result, u⟩ hdone
    cases result with
    | ok => cases hdone
    | error first => exact congrArg _ (Except.error.inj hdone)
  cases s with
  | progress n => cases h
  | start => exact (start_error (hsilent h)).2
  | succeed now => exact (succeed_error (hsilent h)).2
  | fail failed message now => exact (fail_error (hsilent h)).2
  | abort message now => exact (abort_error (hsilent h)).2
  | cancel now => exact (cancel_error (hsilent h)).2

/-- An operation leaves the task as it is, or makes one of its moves. -/
theorem step_cases (t : Task) (s : Step) : (t.step s).2 = t ∨ Move t (t.step s).2 := by
  cases hreply : (t.step s).1 with
  | error refusal => exact .inl (step_error hreply)
  | ok reply => exact .inr (move_of_step (Prod.ext hreply rfl))

/-- A property that moves keep is kept by any driver. -/
theorem drive_induction {P : Task → Prop} (hmove : ∀ {t u}, P t → Move t u → P u) (h : P t)
    (steps : List Step) : P (t.drive steps) := by
  induction steps generalizing t with
  | nil => exact h
  | cons s steps ih =>
    rw [drive_cons]
    apply ih
    rcases step_cases t s with hsame | hmoved
    · rwa [hsame]
    · exact hmove h hmoved

/-- Everything in the record of a task agrees with its status. -/
structure Sound (t : Task) : Prop where
  processed_le : t.processed ≤ t.total
  failed_le : t.failed ≤ t.total
  completed : t.completedAt.isSome = true ↔ t.isTerminal = true
  explained : t.errorMessage.isSome = true ↔ t.status = .failed
  applied : t.status = .success → t.processed = t.total ∧ t.failed = 0
  unfailed : t.isTerminal = false → t.failed = 0

theorem sound_create (id server : String) (total : UInt32) (force : Bool) (now : Int64) :
    (create id server total force now).Sound := by
  constructor <;> simp [create, isTerminal, Status.isTerminal]

theorem Sound.move (h : t.Sound) (hmove : Move t u) : u.Sound := by
  obtain ⟨hprocessed, hfailed, hcompleted, hexplained, happlied, hunfailed⟩ := h
  cases hmove with
  | start pending =>
    have hactive : t.isTerminal = false := isTerminal_eq_false_iff.mpr (.inl pending)
    exact
      { processed_le := hprocessed
        failed_le := hfailed
        completed := by rwa [hactive] at hcompleted
        explained := by simpa [pending] using hexplained
        applied := by simp
        unfailed := fun _ => hunfailed hactive }
  | report n =>
    -- a report raises the progress of a task that goes on, and changes nothing else
    unfold progress
    split
    · next hadvances =>
      have hactive : t.isTerminal = false := by simp_all [advances]
      exact
        { processed_le := Std.min_le_right
          failed_le := hfailed
          completed := hcompleted
          explained := hexplained
          applied := fun hsuccess => by simp_all [isTerminal, Status.isTerminal]
          unfailed := hunfailed }
    · exact ⟨hprocessed, hfailed, hcompleted, hexplained, happlied, hunfailed⟩
  | succeed active now => constructor <;> simp [isTerminal, Status.isTerminal]
  | fail active failed message now =>
    exact
      { processed_le := hprocessed
        failed_le := Std.min_le_right
        completed := by simp [endFailed, isTerminal, Status.isTerminal]
        explained := by simp [endFailed]
        applied := by simp [endFailed]
        unfailed := by simp [endFailed, isTerminal, Status.isTerminal] }

theorem Sound.drive (h : t.Sound) (steps : List Step) : (t.drive steps).Sound :=
  drive_induction (fun hsound hmove => hsound.move hmove) h steps

/-- Any driver keeps the task the same rebuild and takes no progress back. -/
theorem Sound.keeps (h : t.Sound) (steps : List Step) :
    t.SameRebuild (t.drive steps) ∧ t.processed ≤ (t.drive steps).processed := by
  let Kept : Task → Prop := fun u =>
    t.SameRebuild u ∧ t.processed ≤ u.processed ∧ u.processed ≤ u.total
  have hkept : Kept (t.drive steps) := by
    refine drive_induction ?_ ⟨.refl t, UInt32.le_refl _, h.processed_le⟩ steps
    rintro u v ⟨hsame, hle, htotal⟩ hmove
    obtain ⟨hgrows, hwithin⟩ := hmove.counts htotal
    exact ⟨hsame.trans hmove.sameRebuild, UInt32.le_trans hle hgrows, hwithin⟩
  exact ⟨hkept.1, hkept.2.1⟩

theorem Refusal.error_eq (r : Refusal) : ∃ message, r.error = .invalidOperation message := by
  cases r <;> exact ⟨_, rfl⟩

/-- Apart from reports of progress, an ended task refuses every operation. -/
theorem step_of_isTerminal (h : t.isTerminal = true) {s : Step} (hs : ∀ n, s ≠ .progress n) :
    ∃ refusal, t.step s = (.error refusal, t) := by
  have hpending : t.status ≠ .pending := by
    intro hpending
    simp [isTerminal, hpending, Status.isTerminal] at h
  cases s with
  | progress n => exact absurd rfl (hs n)
  | start => simp [step, start, silent, hpending, Except.map]
  | succeed now => simp [step, succeed, silent, unlessEnded_of_isTerminal h, Except.map]
  | fail failed message now => simp [step, fail, silent, unlessEnded_of_isTerminal h, Except.map]
  | abort message now => simp [step, abort, silent, unlessEnded_of_isTerminal h, Except.map]
  | cancel now => simp [step, cancel, silent, unlessEnded_of_isTerminal h, Except.map]

/-- To an ended task, a report of progress does not count. -/
theorem step_progress_of_isTerminal (h : t.isTerminal = true) (n : UInt32) :
    t.step (.progress n) = (.ok (some false), t) := by
  simp [step, advances, progress_of_isTerminal n h, h]

/-- What can be relied on about a task at any moment. -/
structure Steady (t : Task) : Prop extends Sound t where
  keeps : ∀ steps, t.SameRebuild (t.drive steps) ∧ t.processed ≤ (t.drive steps).processed
  /-- The subtraction by which a task is ended from outside counts the rules that are left. -/
  rest : (t.total - t.processed).toNat = t.total.toNat - t.processed.toNat
  refused : ∀ {s refusal}, (t.step s).1 = .error refusal → (t.step s).2 = t
  ended : t.isTerminal = true → ∀ s, (t.step s).2 = t ∧
    match s with
    | .progress _ => (t.step s).1 = .ok (some false)
    | _ => ∃ refusal message, (t.step s).1 = .error refusal ∧
        refusal.error = .invalidOperation message

theorem Sound.steady (h : t.Sound) : t.Steady where
  toSound := h
  keeps := h.keeps
  rest := UInt32.toNat_sub_of_le _ _ h.processed_le
  refused := step_error
  ended hended s := by
    have hrefuses : (∀ n, s ≠ .progress n) → (t.step s).2 = t ∧
        ∃ refusal message, (t.step s).1 = .error refusal ∧
          refusal.error = .invalidOperation message := by
      intro hs
      obtain ⟨refusal, hstep⟩ := step_of_isTerminal hended hs
      obtain ⟨message, hmessage⟩ := refusal.error_eq
      rw [hstep]
      exact ⟨rfl, refusal, message, rfl, hmessage⟩
    cases s with
    | progress n =>
      rw [step_progress_of_isTerminal hended n]
      exact ⟨rfl, rfl⟩
    | start | succeed now | fail failed message now | abort message now | cancel now =>
      exact hrefuses (by simp)

/-- Whatever is tried on a new task, in whatever order and with whatever arguments. -/
theorem driven_steady (id server : String) (total : UInt32) (force : Bool) (now : Int64)
    (steps : List Step) : ((create id server total force now).drive steps).Steady :=
  ((sound_create id server total force now).drive steps).steady

/-- A pending task may report more than its rules and succeed; what comes after is refused. -/
example : (create "a" "S1" 3 false 10).drive [.progress 5, .succeed 12, .start, .abort "late" 13] =
    { create "a" "S1" 3 false 10 with
      status := .success, processed := 3, completedAt := some 12 } := by
  decide

end FirewallRollout.Task
