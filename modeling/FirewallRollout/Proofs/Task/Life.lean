import FirewallRollout.Proofs.Outcome
import FirewallRollout.Task.Basic
import Mathlib.Data.List.Destutter

/-!
# The life of a task

The courses that the status of a task may take, and what one change may do to a task. A change is
described by how the task after it follows the task before; the operations on tasks are shown to make
changes of this kind, each under the condition under which it is used.
-/
namespace FirewallRollout

namespace Status

/-- One move of a status, or none. -/
inductive Next : Status → Status → Prop
  | stay (s : Status) : Next s s
  | start : Next .pending .running
  | withdraw : Next .pending .failed
  | succeed : Next .running .success
  | fail : Next .running .failed

/-- The courses that a task may take from its creation to its end. -/
def courses : List (List Status) :=
  [[.pending, .running, .success], [.pending, .running, .failed], [.pending, .failed]]

theorem Next.eq_of_isTerminal {s t : Status} (h : s.Next t) (hs : s.isTerminal = true) : t = s := by
  cases h <;> first | rfl | simp [isTerminal] at hs

/-- Once terminal, a status is seen only once more. -/
theorem destutter'_terminal {s : Status} {l : List Status} (hs : s.isTerminal = true)
    (h : (s :: l).IsChain Next) : l.destutter' (· ≠ ·) s = [s] := by
  induction l with
  | nil => rfl
  | cons t l ih =>
    rw [List.isChain_cons_cons] at h
    obtain rfl := h.1.eq_of_isTerminal hs
    rw [List.destutter'_cons, if_neg (by simp)]
    exact ih h.2

theorem destutter'_running {l : List Status} (h : (running :: l).IsChain Next) :
    l.destutter' (· ≠ ·) running = [running] ∨
      ∃ last : Status, last.isTerminal = true ∧ l.destutter' (· ≠ ·) running = [running, last] := by
  induction l with
  | nil => exact .inl rfl
  | cons t l ih =>
    rw [List.isChain_cons_cons] at h
    obtain ⟨hnext, hrest⟩ := h
    rw [List.destutter'_cons]
    cases hnext with
    | stay => exact ih hrest
    | succeed => exact .inr ⟨success, rfl, by simp [destutter'_terminal rfl hrest]⟩
    | fail => exact .inr ⟨failed, rfl, by simp [destutter'_terminal rfl hrest]⟩

/-- Without its repetitions, a chain of moves from `pending` is the beginning of a course. -/
theorem destutter_isPrefix_course {l : List Status} (h : (pending :: l).IsChain Next) :
    ∃ course ∈ courses, (pending :: l).destutter (· ≠ ·) <+: course := by
  rw [List.destutter_cons']
  induction l with
  | nil => exact ⟨_, List.mem_cons_self, by decide⟩
  | cons t l ih =>
    rw [List.isChain_cons_cons] at h
    obtain ⟨hnext, hrest⟩ := h
    rw [List.destutter'_cons]
    cases hnext with
    | stay => exact ih hrest
    | withdraw =>
      rw [if_pos (by decide), destutter'_terminal rfl hrest]
      exact ⟨[pending, failed], by decide, by decide⟩
    | start =>
      rw [if_pos (by decide)]
      rcases destutter'_running hrest with hl | ⟨last, hlast, hl⟩
      · rw [hl]
        exact ⟨[pending, running, success], by decide, by decide⟩
      · rw [hl]
        refine ⟨[pending, running, last], ?_, List.prefix_refl _⟩
        cases last <;> first | decide | simp [isTerminal] at hlast

end Status

namespace Task

/-- What never changes about a task: the rebuild that it stands for. -/
def SameRebuild (t u : Task) : Prop :=
  u.id = t.id ∧ u.server = t.server ∧ u.total = t.total ∧ u.force = t.force ∧
    u.startedAt = t.startedAt

theorem SameRebuild.refl (t : Task) : t.SameRebuild t := ⟨rfl, rfl, rfl, rfl, rfl⟩

theorem SameRebuild.trans {t u v : Task} (h : t.SameRebuild u) (h' : u.SameRebuild v) :
    t.SameRebuild v :=
  ⟨h'.1.trans h.1, h'.2.1.trans h.2.1, h'.2.2.1.trans h.2.2.1, h'.2.2.2.1.trans h.2.2.2.1,
    h'.2.2.2.2.trans h.2.2.2.2⟩

/-- The task `u` may come after `t`. -/
structure Later (t u : Task) : Prop where
  same : t.SameRebuild u
  counts : t.processed ≤ t.total → t.processed ≤ u.processed ∧ u.processed ≤ u.total
  /-- A pending task is as it was. -/
  idle : u.status = .pending → u = t
  /-- An ended task stays as it is. -/
  frozen : t.isTerminal = true → u = t

theorem Later.trans {t u v : Task} (h : t.Later u) (h' : u.Later v) : t.Later v where
  same := h.same.trans h'.same
  counts hle := by
    obtain ⟨htu, hu⟩ := h.counts hle
    obtain ⟨huv, hv⟩ := h'.counts hu
    exact ⟨UInt32.le_trans htu huv, hv⟩
  idle hv := by
    obtain rfl := h'.idle hv
    exact h.idle hv
  frozen ht := by
    obtain rfl := h.frozen ht
    exact h'.frozen ht

instance : Trans Later Later Later := ⟨Later.trans⟩

/-- What goes on now has gone on before. -/
theorem Later.isTerminal_eq_false {t u : Task} (h : t.Later u) (hactive : u.isTerminal = false) :
    t.isTerminal = false := by
  cases hended : t.isTerminal with
  | false => rfl
  | true =>
    rw [h.frozen hended, hended] at hactive
    cases hactive

/-- The task `u` may come right after `t`. -/
structure Follows (t u : Task) : Prop extends Later t u where
  status : t.status.Next u.status

theorem Follows.refl (t : Task) : t.Follows t where
  same := .refl t
  counts hle := ⟨UInt32.le_refl _, hle⟩
  idle _ := rfl
  frozen _ := rfl
  status := .stay _

/-- What is seen of a task from its creation on. -/
structure Life (t : Task) (lives : List Task) : Prop where
  born : lives.head? = some t
  same : ∀ u ∈ lives, t.SameRebuild u
  counts : ∀ u ∈ lives, u.processed ≤ u.total ∧ (u.status = .pending → u.processed = 0)
  grows : lives.Pairwise fun u v => u.processed ≤ v.processed
  frozen : lives.Pairwise fun u v => u.isTerminal = true → v = u
  course : ∃ course ∈ Status.courses, (lives.map Task.status).destutter (· ≠ ·) <+: course

/-- A task that was just created and then changes as tasks may has such a life. -/
theorem life_of_chain {id server : String} {total : UInt32} {force : Bool} {now : Int64}
    {l : List Task} (h : (create id server total force now :: l).IsChain Follows) :
    (create id server total force now).Life (create id server total force now :: l) := by
  have hlater := List.isChain_iff_pairwise.mp (h.imp fun _ _ hf => hf.toLater)
  have hfirst : ∀ u ∈ create id server total force now :: l,
      (create id server total force now).Later u := by
    intro u hu
    rcases List.mem_cons.mp hu with rfl | hu
    · exact (Follows.refl _).toLater
    · exact (List.pairwise_cons.mp hlater).1 u hu
  have hcounts : ∀ u ∈ create id server total force now :: l, u.processed ≤ u.total :=
    fun u hu => ((hfirst u hu).counts (UInt32.zero_le)).2
  refine ⟨rfl, fun u hu => (hfirst u hu).same, fun u hu => ⟨hcounts u hu, fun hp => ?_⟩, ?_,
    hlater.imp fun hlate => hlate.frozen, ?_⟩
  · rw [(hfirst u hu).idle hp]
    rfl
  · exact hlater.imp_of_mem fun hu _ hlate => (hlate.counts (hcounts _ hu)).1
  · exact Status.destutter_isPrefix_course
      ((List.isChain_map _).mpr (h.imp fun _ _ hf => hf.status))

theorem isTerminal_eq_false_iff {t : Task} :
    t.isTerminal = false ↔ t.status = .pending ∨ t.status = .running := by
  unfold isTerminal
  cases t.status <;> simp [Status.isTerminal]

/-- A task that starts was pending. -/
theorem start_ok {t u : Task} (h : t.start = (.ok (), u)) :
    t.status = .pending ∧ u = { t with status := .running } := by
  unfold start at h
  split at h
  · next hp => exact ⟨hp, (Prod.mk.inj h).2.symm⟩
  · cases h

theorem start_error {t : Task} {r : Refusal} (h : t.start.1 = .error r) :
    t.status ≠ .pending ∧ t.start.2 = t := by
  unfold start at h ⊢
  split at h
  · cases h
  · next hp => exact ⟨hp, by rw [if_neg hp]⟩

section UnlessEnded
variable {t u : Task} {verb : String} {work : Task → Except Refusal Unit × Task}

theorem unlessEnded_of_active (h : t.isTerminal = false) : t.unlessEnded verb work = work t := by
  simp [unlessEnded, h]

theorem unlessEnded_of_isTerminal (h : t.isTerminal = true) :
    t.unlessEnded verb work = (.error (.ended verb t.id t.status), t) := by
  simp [unlessEnded, h]

theorem unlessEnded_ok (h : t.unlessEnded verb work = (.ok (), u)) :
    t.isTerminal = false ∧ work t = (.ok (), u) := by
  cases hended : t.isTerminal with
  | false => exact ⟨rfl, (unlessEnded_of_active hended).symm.trans h⟩
  | true =>
    rw [unlessEnded_of_isTerminal hended] at h
    cases h

/-- Where the work itself is refused to ended tasks only, so is all of it. -/
theorem unlessEnded_error {r : Refusal} (hwork : (work t).1 = .error r → t.isTerminal = true)
    (h : (t.unlessEnded verb work).1 = .error r) :
    t.isTerminal = true ∧ (t.unlessEnded verb work).2 = t := by
  cases hended : t.isTerminal with
  | true => exact ⟨rfl, by rw [unlessEnded_of_isTerminal hended]⟩
  | false =>
    rw [unlessEnded_of_active hended] at h
    rw [hwork h] at hended
    cases hended

end UnlessEnded

section Ends
variable {t u : Task} {failed : UInt32} {message : String} {now : Int64}

theorem succeed_ok (h : t.succeed now = (.ok (), u)) :
    t.isTerminal = false ∧
      u = { t with
        status := .success, processed := t.total, failed := 0, errorMessage := none,
        completedAt := some now } := by
  obtain ⟨hactive, hu⟩ := unlessEnded_ok h
  exact ⟨hactive, (Prod.mk.inj hu).2.symm⟩

theorem fail_ok (h : t.fail failed message now = (.ok (), u)) :
    t.isTerminal = false ∧ u = t.endFailed (max failed 1) message now := by
  obtain ⟨hactive, hu⟩ := unlessEnded_ok h
  exact ⟨hactive, (Prod.mk.inj hu).2.symm⟩

theorem abort_ok (h : t.abort message now = (.ok (), u)) :
    t.isTerminal = false ∧ u = t.abandon message now := by
  obtain ⟨hactive, hu⟩ := unlessEnded_ok h
  exact ⟨hactive, (Prod.mk.inj hu).2.symm⟩

/-- A task is asked twice whether it has ended before it is cancelled. -/
theorem cancel_ok (h : t.cancel now = (.ok (), u)) :
    t.isTerminal = false ∧ u = t.abandon cancelledMessage now :=
  abort_ok (unlessEnded_ok h).2

theorem succeed_error {r : Refusal} (h : (t.succeed now).1 = .error r) :
    t.isTerminal = true ∧ (t.succeed now).2 = t :=
  unlessEnded_error nofun h

theorem fail_error {r : Refusal} (h : (t.fail failed message now).1 = .error r) :
    t.isTerminal = true ∧ (t.fail failed message now).2 = t :=
  unlessEnded_error nofun h

theorem abort_error {r : Refusal} (h : (t.abort message now).1 = .error r) :
    t.isTerminal = true ∧ (t.abort message now).2 = t :=
  unlessEnded_error nofun h

theorem cancel_error {r : Refusal} (h : (t.cancel now).1 = .error r) :
    t.isTerminal = true ∧ (t.cancel now).2 = t :=
  unlessEnded_error (fun habort => (abort_error habort).1) h

end Ends

theorem reported_eq_ok_iff {α : Type} {done : Except Refusal α × Task} {a : α} {t : Task} :
    reported done = (.ok a, t) ↔ done = (.ok a, t) := by
  rcases done with ⟨result, u⟩
  cases result <;> simp [reported, Except.mapError]

@[simp] theorem progress_status (t : Task) (n : UInt32) : (t.progress n).status = t.status := by
  unfold progress
  split <;> rfl

@[simp] theorem progress_isTerminal (t : Task) (n : UInt32) :
    (t.progress n).isTerminal = t.isTerminal := by
  simp [isTerminal]

theorem progress_sameRebuild (t : Task) (n : UInt32) : t.SameRebuild (t.progress n) := by
  unfold progress
  split <;> exact .refl t

theorem progress_of_isTerminal {t : Task} (n : UInt32) (h : t.isTerminal = true) :
    t.progress n = t := by
  simp [progress, advances, h]

/-- A report only raises the progress, and never beyond the number of rules. -/
theorem progress_counts {t : Task} (n : UInt32) (h : t.processed ≤ t.total) :
    t.processed ≤ (t.progress n).processed ∧ (t.progress n).processed ≤ (t.progress n).total := by
  unfold progress
  split
  · next hn =>
    simp only [advances, Bool.and_eq_true, decide_eq_true_eq] at hn
    exact ⟨UInt32.le_of_lt hn.2, Std.min_le_right⟩
  · exact ⟨UInt32.le_refl _, h⟩

theorem follows_running {t : Task} (h : t.status = .pending) :
    t.Follows { t with status := .running } where
  same := .refl t
  status := by rw [h]; exact .start
  counts hle := ⟨UInt32.le_refl _, hle⟩
  idle hp := by cases hp
  frozen ht := by simp [isTerminal, h, Status.isTerminal] at ht

theorem follows_progress {t : Task} (n : UInt32) (h : t.status ≠ .pending) :
    t.Follows (t.progress n) where
  same := progress_sameRebuild t n
  status := by rw [progress_status]; exact .stay _
  counts := progress_counts n
  idle hp := absurd (progress_status t n ▸ hp) h
  frozen := progress_of_isTerminal n

/-- A task that fails, with the progress that it was last seen to have made. -/
theorem follows_endFailed {t u : Task} (failed : UInt32) (message : String) (now : Int64)
    (ht : t.isTerminal = false) (hu : u = t ∨ ∃ n, u = t.progress n) :
    t.Follows (u.endFailed failed message now) where
  same := by
    rcases hu with rfl | ⟨n, rfl⟩
    · exact .refl u
    · exact progress_sameRebuild t n
  status := by
    rcases isTerminal_eq_false_iff.mp ht with hp | hp <;> rw [hp]
    · exact .withdraw
    · exact .fail
  counts hle := by
    rcases hu with rfl | ⟨n, rfl⟩
    · exact ⟨UInt32.le_refl _, hle⟩
    · exact progress_counts n hle
  idle hp := by cases hp
  frozen h := by rw [ht] at h; cases h

theorem follows_succeed {t u : Task} {now : Int64} (h : t.succeed now = (.ok (), u))
    (hstarted : t.status ≠ .pending) : t.Follows u := by
  obtain ⟨ht, rfl⟩ := succeed_ok h
  have hrunning : t.status = .running :=
    (isTerminal_eq_false_iff.mp ht).resolve_left hstarted
  exact {
    same := .refl t
    status := by rw [hrunning]; exact .succeed
    counts := fun hle => ⟨hle, UInt32.le_refl _⟩
    idle := fun hp => by cases hp
    frozen := fun h => by rw [ht] at h; cases h }

theorem exists_succeed {t : Task} (h : t.isTerminal = false) (now : Int64) :
    ∃ u, t.succeed now = (.ok (), u) ∧ u.status = .success ∧ u.id = t.id := by
  refine ⟨{ t with
    status := .success, processed := t.total, failed := 0, errorMessage := none,
    completedAt := some now }, ?_, rfl, rfl⟩
  exact unlessEnded_of_active h

/-- What an operation makes of a task unless it is refused. -/
inductive Move (t : Task) : Task → Prop
  | start (pending : t.status = .pending) : Move t { t with status := .running }
  | report (n : UInt32) : Move t (t.progress n)
  | succeed (active : t.isTerminal = false) (now : Int64) :
      Move t { t with
        status := .success, processed := t.total, failed := 0, errorMessage := none,
        completedAt := some now }
  | fail (active : t.isTerminal = false) (failed : UInt32) (message : String) (now : Int64) :
      Move t (t.endFailed failed message now)

theorem move_of_step {t u : Task} {s : Step} {reply : Reply} (h : t.step s = (.ok reply, u)) :
    Move t u := by
  have hsilent : ∀ {done : Except Refusal Unit × Task}, silent done = (.ok reply, u) →
      done = (.ok (), u) := by
    rintro ⟨result, v⟩ hdone
    obtain ⟨hresult, rfl⟩ := Prod.mk.inj hdone
    obtain ⟨-, rfl, -⟩ := map_ok hresult
    rfl
  cases s with
  | start =>
    obtain ⟨hpending, rfl⟩ := start_ok (hsilent h)
    exact .start hpending
  | progress n =>
    obtain ⟨-, rfl⟩ := Prod.mk.inj h
    exact .report n
  | succeed now =>
    obtain ⟨hactive, rfl⟩ := succeed_ok (hsilent h)
    exact .succeed hactive now
  | fail failed message now =>
    obtain ⟨hactive, rfl⟩ := fail_ok (hsilent h)
    exact .fail hactive (max failed 1) message now
  | abort message now =>
    obtain ⟨hactive, rfl⟩ := abort_ok (hsilent h)
    exact .fail hactive (t.total - t.processed) message now
  | cancel now =>
    obtain ⟨hactive, rfl⟩ := cancel_ok (hsilent h)
    exact .fail hactive (t.total - t.processed) cancelledMessage now

theorem Move.sameRebuild {t u : Task} (h : Move t u) : t.SameRebuild u := by
  cases h with
  | report n => exact progress_sameRebuild t n
  | start _ | succeed _ _ | fail _ _ _ _ => exact .refl t

/-- No move takes progress back, or takes it beyond the number of rules. -/
theorem Move.counts {t u : Task} (h : Move t u) (hle : t.processed ≤ t.total) :
    t.processed ≤ u.processed ∧ u.processed ≤ u.total := by
  cases h with
  | report n => exact progress_counts n hle
  | succeed _ _ => exact ⟨hle, UInt32.le_refl _⟩
  | start _ | fail _ _ _ _ => exact ⟨UInt32.le_refl _, hle⟩

/-- Whatever a step does, the task stays the same rebuild, and its progress within its rules. -/
theorem step_ok {t u : Task} {s : Step} {reply : Reply} (h : t.step s = (.ok reply, u)) :
    t.SameRebuild u ∧ (t.processed ≤ t.total → u.processed ≤ u.total) :=
  ⟨(move_of_step h).sameRebuild, fun hle => ((move_of_step h).counts hle).2⟩

end Task
end FirewallRollout
