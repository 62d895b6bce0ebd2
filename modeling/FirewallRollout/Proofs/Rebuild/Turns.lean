import FirewallRollout.Proofs.Rebuild.Limit

/-!
# Workers that are served

A worker takes its steps in a fixed order. Given one try at each of them, it has nothing more to do
before some later moment, whatever its executor did in between, and the clock can go on until then.
-/
namespace FirewallRollout.Rebuild

namespace Worker

/-- How far a worker is through a turn: the place of the step that it can take next, among the six
that it is given in order, or the end. -/
def progress (w : Worker) (clock : Nat) : Nat :=
  match w.phase with
  | .queued => 0
  | .executing deadline => if deadline ≤ clock then 1 else if w.cancelled then 2 else 6
  | .winding _ limit => if limit ≤ clock then 3 else 6
  | .settling _ => 4
  | .releasing => 5

theorem one_le_progress {w : Worker} (h : w.phase ≠ .queued) (clock : Nat) : 1 ≤ w.progress clock := by
  unfold progress
  split
  · contradiction
  all_goals (try split_ifs) <;> omega

/-- What a worker is about to do, by how far it is. -/
theorem phase_of_progress (w : Worker) (clock : Nat) :
    (w.progress clock = 1 → ∃ deadline, w.phase = .executing deadline ∧ deadline ≤ clock) ∧
      (w.progress clock = 2 → ∃ deadline, w.phase = .executing deadline ∧ w.cancelled = true) ∧
      (w.progress clock = 3 → ∃ outcome limit, w.phase = .winding outcome limit ∧ limit ≤ clock) ∧
      (w.progress clock = 4 → ∃ outcome, w.phase = .settling outcome) ∧
      (w.progress clock = 5 → w.phase = .releasing) := by
  unfold progress
  split <;> (try split_ifs) <;> simp_all

/-- After its turn a worker has nothing to do yet. -/
theorem idle_of_progress {w : Worker} {clock : Nat} (h : 6 ≤ w.progress clock) :
    w.isUrgent = false ∧ ∀ limit, w.deadline? = some limit → clock < limit := by
  cases hphase : w.phase with
  | executing deadline =>
    simp only [progress, hphase] at h
    by_cases hdue : deadline ≤ clock
    · simp [hdue] at h
    · cases hc : w.cancelled <;> simp_all [isUrgent, deadline?]
  | winding outcome limit =>
    simp only [progress, hphase] at h
    by_cases hdue : limit ≤ clock
    · simp [hdue] at h
    · simpa [isUrgent, deadline?, hphase] using hdue
  | _ => simp [progress, hphase] at h

end Worker

namespace State

/-- The worker of a task, if there is one, has come some way through its turn. -/
def Reached (s : State) (id : String) (n : Nat) : Prop :=
  ∀ w, s.worker? id = some w → n ≤ w.progress s.clock

/-- A run leads from one state to the other. -/
def LeadsTo (s s' : State) : Prop := ∃ events, s' = s.run events

/-- What is done in the turn of a task: steps of its own, at one moment. -/
structure Serves (id : String) (s s' : State) : Prop where
  steps : s.LeadsTo s'
  clock : s'.clock = s.clock
  others : ∀ {id'}, id' ≠ id → s'.worker? id' = s.worker? id'

theorem run_append (s : State) (events later : List Event) :
    s.run (events ++ later) = (s.run events).run later :=
  List.foldl_append

theorem leadsTo_step (s : State) (e : Event) : s.LeadsTo (s.step e) := ⟨[e], rfl⟩

theorem LeadsTo.refl (s : State) : s.LeadsTo s := ⟨[], rfl⟩

theorem LeadsTo.trans {s₁ s₂ s₃ : State} (h : s₁.LeadsTo s₂) (h' : s₂.LeadsTo s₃) :
    s₁.LeadsTo s₃ := by
  obtain ⟨events, rfl⟩ := h
  obtain ⟨later, rfl⟩ := h'
  exact ⟨events ++ later, (s₁.run_append events later).symm⟩

theorem Orderly.leadsTo {s s' : State} (hs : s.Orderly) (h : s.LeadsTo s') : s'.Orderly := by
  obtain ⟨events, rfl⟩ := h
  exact hs.run events

theorem Serves.refl (id : String) (s : State) : Serves id s s where
  steps := .refl s
  clock := rfl
  others _ := rfl

theorem Serves.trans {id : String} {s₁ s₂ s₃ : State} (h : Serves id s₁ s₂) (h' : Serves id s₂ s₃) :
    Serves id s₁ s₃ where
  steps := h.steps.trans h'.steps
  clock := h'.clock.trans h.clock
  others hid := (h'.others hid).trans (h.others hid)

/-- A step that changes the worker of its own task at most. -/
theorem serves_step {s s' : State} {id : String} (e : Event) (hs' : s.step e = s')
    (h : s' = s ∨ ∃ s₁ change, s' = withWorker s₁ id change ∧ s₁.workers = s.workers ∧
      s₁.clock = s.clock ∧ ∀ w, (change w).task = w.task) : Serves id s s' := by
  refine ⟨hs' ▸ s.leadsTo_step e, ?_, fun {id'} hid => ?_⟩
  · rcases h with rfl | ⟨s₁, change, rfl, -, hclock, -⟩
    · rfl
    · exact hclock
  · rcases h with rfl | ⟨s₁, change, rfl, hworkers, -, hkeep⟩
    · rfl
    · rw [worker?_withWorker _ _ _ hkeep, if_neg hid, worker?, worker?, hworkers]

theorem reached_withWorker {s : State} {id : String} {n : Nat} {change : Worker → Worker}
    (hkeep : ∀ w, (change w).task = w.task)
    (h : ∀ w, s.worker? id = some w → n ≤ (change w).progress s.clock) :
    (s.withWorker id change).Reached id n := by
  intro w' hw'
  rw [worker?_withWorker _ _ _ hkeep, if_pos rfl] at hw'
  obtain ⟨w, hw, rfl⟩ := Option.map_eq_some_iff.mp hw'
  exact h w hw

section Steps
variable {s : State} {id : String}

theorem workers_of_withTask? {s' : State} {change : Task → Except Task.Refusal Unit × Task}
    (h : s.withTask? id change = some s') : s'.workers = s.workers ∧ s'.clock = s.clock := by
  obtain ⟨e, t, -, -, rfl⟩ := withTask?_eq_some_iff.mp h
  exact ⟨rfl, rfl⟩

/-- A worker in the queue is given another phase, and it waits for its executor only when it has
begun a call. -/
theorem start_cases (s : State) (id : String) :
    (s.start id = s ∧ ∀ w, s.worker? id = some w → w.phase ≠ .queued) ∨
      ∃ (w : Worker) (s₁ : State) (phase : Phase), s.worker? id = some w ∧ w.phase = .queued ∧
        s.start id = s₁.setPhase id phase ∧ s₁.workers = s.workers ∧ s₁.clock = s.clock ∧
        (s₁.calls = s.calls ∧ (phase = .releasing ∨ phase = .settling .applied) ∨
          s₁.calls = s.calls ++ [{ plan := w.plan }] ∧
            phase = .executing (s.clock + s.budgetMs w.task)) := by
  rw [start_eq]
  split
  · next hnone =>
    refine .inl ⟨rfl, fun w hw hphase => ?_⟩
    rw [workerIn?, hw] at hnone
    simp [Option.filter, hphase] at hnone
  next w hfound =>
  obtain ⟨hw, hphase⟩ := workerIn?_eq_some_iff.mp hfound
  have hqueued : w.phase = .queued := by simpa using hphase
  split
  · exact .inr ⟨w, s, _, hw, hqueued, rfl, rfl, rfl, .inl ⟨rfl, .inl rfl⟩⟩
  next s' hsome =>
  obtain ⟨e, t, -, -, rfl⟩ := withTask?_eq_some_iff.mp hsome
  split
  · exact .inr ⟨w, _, _, hw, hqueued, rfl, rfl, rfl, .inl ⟨rfl, .inr rfl⟩⟩
  · exact .inr ⟨w, _, _, hw, hqueued, rfl, rfl, rfl, .inr ⟨rfl, rfl⟩⟩

theorem serves_start (s : State) (id : String) : Serves id s (s.start id) := by
  rcases s.start_cases id with ⟨hsame, -⟩ | ⟨w, s₁, phase, -, -, hs₁, hworkers, hclock, -⟩
  · exact serves_step (.start id) rfl (.inl hsame)
  · exact serves_step (.start id) rfl (.inr ⟨s₁, _, hs₁, hworkers, hclock, fun _ => rfl⟩)

theorem reached_start (s : State) (id : String) : (s.start id).Reached id 1 := by
  rcases s.start_cases id with ⟨hsame, hphase⟩ | ⟨w, s₁, phase, -, -, hs₁, -, -, hcalls⟩
  · rw [hsame]
    intro w hw
    exact Worker.one_le_progress (hphase w hw) _
  · have hleft : phase ≠ .queued := by
      rcases hcalls with ⟨-, rfl | rfl⟩ | ⟨-, rfl⟩ <;> simp
    rw [hs₁]
    exact reached_withWorker (fun _ => rfl) fun w _ => Worker.one_le_progress hleft _

theorem workers_report (s : State) (id : String) (n : UInt32) :
    (s.report id n).workers = s.workers ∧ (s.report id n).clock = s.clock := by
  unfold report
  split
  · exact ⟨rfl, rfl⟩
  cases hs : s.withTask? id fun t => (.ok (), t.progress n) with
  | none => exact ⟨rfl, rfl⟩
  | some s' => exact workers_of_withTask? hs

theorem serves_report (s : State) (id : String) (n : UInt32) : Serves id s (s.report id n) := by
  obtain ⟨hworkers, hclock⟩ := s.workers_report id n
  exact ⟨s.leadsTo_step (.report id n), hclock, fun _ => by rw [worker?, worker?, hworkers]⟩

theorem reached_report {m : Nat} (h : s.Reached id m) (n : UInt32) :
    (s.report id n).Reached id m := by
  obtain ⟨hworkers, hclock⟩ := s.workers_report id n
  intro w hw
  rw [worker?, hworkers] at hw
  rw [hclock]
  exact h w hw

theorem serves_finish (s : State) (id : String) (result : Executor.Result) :
    Serves id s (s.finish id result) := by
  refine serves_step (.finish id result) rfl ?_
  unfold finish
  split
  · exact .inl rfl
  split
  · exact .inr ⟨_, _, rfl, rfl, rfl, fun _ => rfl⟩
  · exact .inr ⟨_, _, rfl, rfl, rfl, fun _ => rfl⟩
  · exact .inl rfl

/-- A call that returns is over. -/
theorem reached_finish {m : Nat} (h : s.Reached id m) (hm : m ≤ 4) (result : Executor.Result) :
    (s.finish id result).Reached id m := by
  unfold finish
  split
  · exact h
  split
  · exact reached_withWorker (fun _ => rfl) fun w _ => hm
  · exact reached_withWorker (fun _ => rfl) fun w _ => hm
  · exact h

theorem serves_expire (s : State) (id : String) : Serves id s (s.expire id) := by
  refine serves_step (.expire id) rfl ?_
  unfold expire
  split
  · split
    · exact .inr ⟨s, _, rfl, rfl, rfl, fun _ => rfl⟩
    · exact .inl rfl
  · exact .inl rfl

theorem serves_notice (s : State) (id : String) : Serves id s (s.notice id) := by
  refine serves_step (.notice id) rfl ?_
  unfold notice
  split
  · exact .inr ⟨s, _, rfl, rfl, rfl, fun _ => rfl⟩
  · exact .inl rfl

theorem serves_abandon (s : State) (id : String) : Serves id s (s.abandon id) := by
  refine serves_step (.abandon id) rfl ?_
  unfold abandon
  split
  · split
    · exact .inr ⟨s, _, rfl, rfl, rfl, fun _ => rfl⟩
    · exact .inl rfl
  · exact .inl rfl

theorem serves_settle (s : State) (id : String) (now : Int64) : Serves id s (s.settle id now) := by
  refine serves_step (.settle id now) rfl ?_
  rw [settle_eq]
  split
  · split
    · exact .inr ⟨s, _, rfl, rfl, rfl, fun _ => rfl⟩
    · next hsome =>
      obtain ⟨hworkers, hclock⟩ := workers_of_withTask? hsome
      exact .inr ⟨_, _, rfl, hworkers, hclock, fun _ => rfl⟩
  · exact .inl rfl

theorem serves_release (s : State) (id : String) : Serves id s (s.release id) := by
  refine ⟨s.leadsTo_step (.release id), ?_, fun {id'} hid => ?_⟩
  · unfold release
    split <;> rfl
  · unfold release
    split
    · rfl
    · rw [worker?_filter (s := s) rfl, if_neg hid]

theorem reached_expire (h : s.Reached id 1) : (s.expire id).Reached id 2 := by
  -- a worker that is not taken further is further already
  have hstay : (∀ w deadline, s.worker? id = some w → w.phase = .executing deadline →
      ¬ deadline ≤ s.clock) → s.Reached id 2 := by
    intro hlater w hw
    refine Nat.lt_of_le_of_ne (h w hw) fun hp => ?_
    obtain ⟨deadline, hphase, hdue⟩ := (w.phase_of_progress s.clock).1 hp.symm
    exact hlater w deadline hw hphase hdue
  unfold expire
  split
  · next hw =>
    split
    · refine reached_withWorker (fun _ => rfl) fun w _ => ?_
      simp only [Worker.progress]
      split <;> omega
    · next hdue =>
      refine hstay fun v deadline' hv hphase => ?_
      obtain rfl := Option.some.inj (hw.symm.trans hv)
      obtain rfl := Phase.executing.inj hphase
      exact hdue
  · next hother =>
    refine hstay fun v deadline hv hphase => ?_
    obtain ⟨task, script, unchanged, cancelled, phase⟩ := v
    obtain rfl : phase = .executing deadline := hphase
    exact absurd hv (hother _ _ _ _ _)

theorem reached_notice (h : s.Reached id 2) : (s.notice id).Reached id 3 := by
  unfold notice
  split
  · refine reached_withWorker (fun _ => rfl) fun w _ => ?_
    simp only [Worker.progress]
    split <;> omega
  · next hother =>
    intro w hw
    refine Nat.lt_of_le_of_ne (h w hw) fun hp => ?_
    obtain ⟨deadline, hphase, hcancelled⟩ := (w.phase_of_progress s.clock).2.1 hp.symm
    obtain ⟨task, script, unchanged, cancelled, phase⟩ := w
    obtain rfl : phase = .executing deadline := hphase
    obtain rfl : cancelled = true := hcancelled
    exact hother _ _ _ _ hw

theorem reached_abandon (h : s.Reached id 3) : (s.abandon id).Reached id 4 := by
  have hstay : (∀ w outcome limit, s.worker? id = some w → w.phase = .winding outcome limit →
      ¬ limit ≤ s.clock) → s.Reached id 4 := by
    intro hlater w hw
    refine Nat.lt_of_le_of_ne (h w hw) fun hp => ?_
    obtain ⟨outcome, limit, hphase, hdue⟩ := (w.phase_of_progress s.clock).2.2.1 hp.symm
    exact hlater w outcome limit hw hphase hdue
  unfold abandon
  split
  · next hw =>
    split
    · exact reached_withWorker (fun _ => rfl) fun w _ => Nat.le_refl 4
    · next hdue =>
      refine hstay fun v outcome' limit' hv hphase => ?_
      obtain rfl := Option.some.inj (hw.symm.trans hv)
      obtain ⟨rfl, rfl⟩ := Phase.winding.inj hphase
      exact hdue
  · next hother =>
    refine hstay fun v outcome limit hv hphase => ?_
    obtain ⟨task, script, unchanged, cancelled, phase⟩ := v
    obtain rfl : phase = .winding outcome limit := hphase
    exact absurd hv (hother _ _ _ _ _ _)

theorem reached_settle (h : s.Reached id 4) (now : Int64) : (s.settle id now).Reached id 5 := by
  rw [settle_eq]
  split
  · split
    · exact reached_withWorker (fun _ => rfl) fun w _ => Nat.le_refl 5
    · exact reached_withWorker (fun _ => rfl) fun w _ => Nat.le_refl 5
  · next hother =>
    intro w hw
    refine Nat.lt_of_le_of_ne (h w hw) fun hp => ?_
    obtain ⟨outcome, hphase⟩ := (w.phase_of_progress s.clock).2.2.2.1 hp.symm
    obtain ⟨task, script, unchanged, cancelled, phase⟩ := w
    obtain rfl : phase = .settling outcome := hphase
    exact hother _ _ _ _ _ hw

theorem reached_release (h : s.Reached id 5) : (s.release id).Reached id 6 := by
  unfold release
  split
  · next hnone =>
    intro w hw
    refine Nat.lt_of_le_of_ne (h w hw) fun hp => ?_
    have hphase := (w.phase_of_progress s.clock).2.2.2.2 hp.symm
    rw [workerIn?, hw] at hnone
    simp [Option.filter, hphase] at hnone
  · intro w hw
    rw [worker?_filter (s := s) rfl, if_pos rfl] at hw
    cases hw

end Steps

/-- Where every worker has had its turn, the clock may go on to the first moment at which one of them
has something to do. -/
theorem mayPass_of_reached {s : State} (hdistinct : s.OneWorkerEach)
    (hreached : ∀ id, s.Reached id 6) {ms : Nat}
    (hwithin : ∀ w ∈ s.workers, ∀ limit, w.deadline? = some limit → s.clock < limit →
      s.clock + ms ≤ limit) : s.mayPass ms = true := by
  apply List.all_eq_true.mpr
  intro w hw
  have hfound : s.worker? w.task.id = some w :=
    Keyed.find?_of_mem (fun w : Worker => w.task.id) hdistinct hw
  obtain ⟨hidle, hlater⟩ := Worker.idle_of_progress (hreached _ w hfound)
  cases hlimit : w.deadline? with
  | none => simp [hidle]
  | some limit => simpa [hidle] using hwithin w hw limit hlimit (hlater limit hlimit)

end State

end FirewallRollout.Rebuild
