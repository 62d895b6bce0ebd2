import FirewallRollout.Proofs.Rebuild.Acts

/-!
# What decides a call

A worker that no longer waits for its executor has an outcome, and the run up to then tells why: while
its call was going on the budget was used up, the executor failed, or someone else had stopped the
task. As long as no executor cancels the token of its own call, no other reason is left.
-/
namespace FirewallRollout.Rebuild

/-- What may end a task with failure. -/
inductive Cause where
  /-- A caller cancelled the task. -/
  | cancelled
  /-- A shutdown began before the executor was done. -/
  | shutDown
  /-- The budget of the call was used up. -/
  | timedOut
  /-- The executor failed. -/
  | executor (f : Executor.Failure)

namespace Cause

/-- The outcome of a worker by what stopped it. -/
def outcome : Cause → Outcome
  | .cancelled | .shutDown => .interrupted
  | .timedOut => .timedOut
  | .executor f => .failed f

/-- The message of a failed task of some rules. -/
def message (settings : Settings) (total : UInt32) : Cause → String
  | .cancelled => "cancelled by user"
  | .shutDown => "rebuild aborted: service shutting down"
  | .timedOut => s!"rebuild timed out after {settings.budget total}s"
  | .executor f => f.message

end Cause

namespace State

/-- Someone other than its worker has stopped a task. -/
def Stopped (s : State) (id : String) : Prop := s.shuttingDown = true ∨ s.hasEnded id = true

/-- The token of a task is there and not cancelled, at every moment of a run. -/
def Untouched (first : State) (id : String) (events : List Event) : Prop :=
  ∀ part, part <+: events → (first.run part).tokens.lookup id = some false

/-- The call of a task began at a moment of a run. -/
def Began (first : State) (t : Task) (events : List Event) (moment : Nat) : Prop :=
  ∃ before during, events = before ++ .start t.id :: during ∧
    ((first.run before).step (.start t.id)).calls ≠ (first.run before).calls ∧
    (first.run before).clock = moment

/-- The call of a task, which began at a moment of a run, goes on at its end. -/
structure Calling (first : State) (t : Task) (events : List Event) (moment : Nat) : Prop where
  began : first.Began t events moment
  unreturned : ∃ call, (first.run events).callsOf t.id = [call] ∧ call.result = none
  inTime : (first.run events).clock ≤ moment + first.budgetMs t

/-- What decided the call of a task in a run. -/
inductive Decided (first : State) (t : Task) (events : List Event) : Cause → Prop
  | cancelled {part later : List Event} {moment : Nat} (split : events = part ++ later)
      (calling : first.Calling t part moment) (ended : (first.run part).hasEnded t.id = true) :
      Decided first t events .cancelled
  | shutDown {part later : List Event} {moment : Nat} (split : events = part ++ later)
      (calling : first.Calling t part moment) (down : (first.run part).shuttingDown = true) :
      Decided first t events .shutDown
  /-- Nobody had stopped the task when its budget was used up. -/
  | timedOut {part later : List Event} {moment : Nat}
      (split : events = part ++ .expire t.id :: later) (calling : first.Calling t part moment)
      (usedUp : (first.run part).clock = moment + first.budgetMs t)
      (accepting : (first.run part).shuttingDown = false)
      (active : (first.run part).hasEnded t.id = false) (untouched : first.Untouched t.id part) :
      Decided first t events .timedOut
  | executor {part later : List Event} {moment : Nat} {f : Executor.Failure}
      (split : events = part ++ .finish t.id (.error f) :: later)
      (calling : first.Calling t part moment) (untouched : first.Untouched t.id part) :
      Decided first t events (.executor f)

/-- There is a cause for the outcome of a task's call in a run. -/
def Reasoned (first : State) (t : Task) (events : List Event) (outcome : Outcome) : Prop :=
  ∃ cause : Cause, cause.outcome = outcome ∧ first.Decided t events cause

variable {first : State} {t : Task} {events : List Event}

theorem Began.append {moment : Nat} (h : first.Began t events moment) (more : List Event) :
    first.Began t (events ++ more) moment := by
  obtain ⟨before, during, rfl, hbegins, hclock⟩ := h
  exact ⟨before, during ++ more, by simp, hbegins, hclock⟩

/-- What has been decided stays so. -/
theorem Decided.append {cause : Cause} (h : first.Decided t events cause) (more : List Event) :
    first.Decided t (events ++ more) cause := by
  cases h with
  | @cancelled part later moment split calling ended =>
    have hsplit : events ++ more = part ++ (later ++ more) := by rw [split, List.append_assoc]
    exact .cancelled hsplit calling ended
  | @shutDown part later moment split calling down =>
    have hsplit : events ++ more = part ++ (later ++ more) := by rw [split, List.append_assoc]
    exact .shutDown hsplit calling down
  | @timedOut part later moment split calling usedUp accepting active untouched =>
    have hsplit : events ++ more = part ++ .expire t.id :: (later ++ more) := by
      rw [split, List.append_assoc, List.cons_append]
    exact .timedOut hsplit calling usedUp accepting active untouched
  | @executor part later moment f split calling untouched =>
    have hsplit : events ++ more = part ++ .finish t.id (.error f) :: (later ++ more) := by
      rw [split, List.append_assoc, List.cons_append]
    exact .executor hsplit calling untouched

theorem Reasoned.append {outcome : Outcome} (h : first.Reasoned t events outcome)
    (more : List Event) : first.Reasoned t (events ++ more) outcome := by
  obtain ⟨cause, houtcome, hdecided⟩ := h
  exact ⟨cause, houtcome, hdecided.append more⟩

theorem Stopped.step {s : State} {id : String} (h : s.Stopped id) (hs : s.Coherent)
    (hregistered : s.registry.find? id ≠ none) (e : Event) : (s.step e).Stopped id := by
  obtain ⟨entry, hentry⟩ := Option.ne_none_iff_exists'.mp hregistered
  exact h.imp (s.step_effect e).shuttingDown ((s.step_effect e).hasEnded_eq_true hs hentry)

theorem stopOutcome_eq_interrupted {s : State} {id : String} (h : s.Stopped id) :
    s.stopOutcome id = .interrupted := by
  rcases h with h | h <;> simp [stopOutcome, h]

theorem stopOutcome_eq_timedOut {s : State} {id : String} (h : ¬ s.Stopped id) :
    s.stopOutcome id = .timedOut := by
  rw [Stopped, not_or] at h
  simp [stopOutcome, h.1, h.2]

/-- A token that is not cancelled has never been. -/
theorem Orderly.untouched (hs : first.Orderly) {id : String}
    (hregistered : first.registry.find? id ≠ none) {w : Worker}
    (hw : (first.run events).worker? id = some w) (h : w.cancelled = false) :
    first.Untouched id events := by
  rintro part ⟨rest, rfl⟩
  rw [run_append] at hw
  have hpart := hs.run part
  replace hregistered := hs.coherent.registered_run hregistered part
  generalize first.run part = s at hw hpart hregistered
  induction rest generalizing s with
  | nil => rw [lookup_tokens, show s.worker? id = some w from hw, Option.map_some, h]
  | cons e rest ih =>
    have hlater := ih (s.step e) hw (hpart.run [e]) (hpart.coherent.registered_run hregistered [e])
    rw [lookup_tokens] at hlater ⊢
    obtain ⟨v', hv', hopen⟩ := Option.map_eq_some_iff.mp hlater
    rcases (s.step_effect e).worker_moves hv' with ⟨v, hv, hmoves⟩ | ⟨hnone, -⟩
    · rw [hv, Option.map_some, Option.some_inj]
      cases hmoves with
      | stays clock down => exact hopen
      | waits clock down idle within => exact hopen
      | token clock => cases hopen
      | winds clock down phase outcome => cases hopen
      | acts clock down next moved awake timed => exact hopen
    · exact absurd hnone hregistered

end State

open State

/-- The run so far tells why a worker is where it is. -/
def Worker.Explained (w : Worker) (first : State) (events : List Event) : Prop :=
  match w.phase with
  | .queued => w.cancelled = true → (first.run events).Stopped w.task.id
  | .executing deadline =>
    (w.cancelled = true → (first.run events).Stopped w.task.id) ∧
      ∃ moment, first.Began w.task events moment ∧ deadline = moment + first.budgetMs w.task
  | .winding outcome _ => first.Reasoned w.task events outcome
  | .settling outcome => outcome = .applied ∨ first.Reasoned w.task events outcome
  | .releasing => True

section Step
variable {first : State} {events : List Event} {w : Worker} (hs : first.Orderly)
include hs

/-- A worker that stays in its phase, its token cancelled only when its task has been stopped. -/
theorem Worker.Explained.stays (h : w.Explained first events)
    (hregistered : first.registry.find? w.task.id ≠ none) (e : Event) {cancelled : Bool}
    (hcancelled : cancelled = true →
      w.cancelled = true ∨ ((first.run events).step e).Stopped w.task.id) :
    Explained { w with cancelled } first (events ++ [e]) := by
  have hrun : first.run (events ++ [e]) = (first.run events).step e := first.run_append events [e]
  have hstopped : (w.cancelled = true → (first.run events).Stopped w.task.id) →
      cancelled = true → (first.run (events ++ [e])).Stopped w.task.id := by
    intro hbefore hc
    rw [hrun]
    rcases hcancelled hc with hold | hnew
    · exact (hbefore hold).step (hs.run events).coherent
        (hs.coherent.registered_run hregistered events) e
    · exact hnew
  unfold Explained at h ⊢
  cases hphase : w.phase with
  | queued =>
    simp only [hphase] at h ⊢
    exact hstopped h
  | executing deadline =>
    simp only [hphase] at h ⊢
    obtain ⟨hbefore, moment, hbegan, hdeadline⟩ := h
    exact ⟨hstopped hbefore, moment, hbegan.append [e], hdeadline⟩
  | winding outcome limit =>
    simp only [hphase] at h ⊢
    exact h.append [e]
  | settling outcome =>
    simp only [hphase] at h ⊢
    exact h.imp_right (·.append [e])
  | releasing => trivial

variable (hw : (first.run events).worker? w.task.id = some w)
include hw

theorem Worker.Explained.calling (h : w.Explained first events) {deadline : Nat}
    (hphase : w.phase = .executing deadline) :
    ∃ moment, deadline = moment + first.budgetMs w.task ∧ first.Calling w.task events moment := by
  rw [Explained, hphase] at h
  obtain ⟨-, moment, hbegan, hdeadline⟩ := h
  have hnow := hs.run events
  refine ⟨moment, hdeadline, hbegan, ?_, hdeadline ▸ (hnow.timely hw).executing deadline hphase⟩
  have hcall := hnow.coherent.callsOf_calling hw (isCalling_iff.mpr (.inl ⟨deadline, hphase⟩))
  exact ⟨_, hcall.2, rfl⟩

/-- A call that is going on when its task has been stopped. -/
theorem Worker.Explained.interrupted (h : w.Explained first events) {deadline : Nat}
    (hphase : w.phase = .executing deadline) (hstopped : (first.run events).Stopped w.task.id)
    (e : Event) : first.Reasoned w.task (events ++ [e]) .interrupted := by
  obtain ⟨moment, -, hcalling⟩ := h.calling hs hw hphase
  rcases hstopped with hdown | hended
  · exact ⟨.shutDown, rfl, .shutDown rfl hcalling hdown⟩
  · exact ⟨.cancelled, rfl, .cancelled rfl hcalling hended⟩

/-- A worker gives up its call for a reason. -/
theorem Worker.Explained.winds (h : w.Explained first events) {deadline : Nat} {e : Event}
    (hregistered : first.registry.find? w.task.id ≠ none) (hphase : w.phase = .executing deadline)
    (hdue : e = .expire w.task.id ∧ deadline ≤ (first.run events).clock ∨ w.cancelled = true) :
    first.Reasoned w.task (events ++ [e]) ((first.run events).stopOutcome w.task.id) := by
  by_cases hstopped : (first.run events).Stopped w.task.id
  · rw [stopOutcome_eq_interrupted hstopped]
    exact h.interrupted hs hw hphase hstopped e
  have hopen : w.cancelled = false := by
    rw [Explained, hphase] at h
    exact Bool.eq_false_iff.mpr (mt h.1 hstopped)
  -- nobody has told the worker to stop, so it is the clock, and it has not gone past the deadline
  obtain ⟨rfl, hlate⟩ := hdue.resolve_right (by simp [hopen])
  obtain ⟨moment, hdeadline, hcalling⟩ := h.calling hs hw hphase
  have husedUp : (first.run events).clock = moment + first.budgetMs w.task :=
    Nat.le_antisymm hcalling.inTime (hdeadline ▸ hlate)
  have huntouched := hs.untouched hregistered hw hopen
  rw [stopOutcome_eq_timedOut hstopped]
  rw [Stopped, not_or, Bool.not_eq_true, Bool.not_eq_true] at hstopped
  exact ⟨.timedOut, rfl, .timedOut rfl hcalling husedUp hstopped.1 hstopped.2 huntouched⟩

/-- A call returns with rules applied, or with a reason. -/
theorem Worker.Explained.returns (h : w.Explained first events) {deadline : Nat}
    (hregistered : first.registry.find? w.task.id ≠ none) (hphase : w.phase = .executing deadline)
    (result : Executor.Result) :
    outcomeOf w result = .applied ∨
      first.Reasoned w.task (events ++ [.finish w.task.id result]) (outcomeOf w result) := by
  cases result with
  | ok u => exact .inl rfl
  | error f =>
    refine .inr ?_
    cases hcancelled : w.cancelled with
    | true =>
      have hstopped : (first.run events).Stopped w.task.id := by
        rw [Explained, hphase] at h
        exact h.1 hcancelled
      rw [show outcomeOf w (.error f) = .interrupted by simp [outcomeOf, hcancelled]]
      exact h.interrupted hs hw hphase hstopped _
    | false =>
      obtain ⟨moment, -, hcalling⟩ := h.calling hs hw hphase
      rw [show outcomeOf w (.error f) = .failed f by simp [outcomeOf, hcancelled]]
      exact ⟨.executor f, rfl, .executor rfl hcalling (hs.untouched hregistered hw hcancelled)⟩

/-- What an event does to a worker is explained by the run up to it, unless it is the executor that
cancels the worker's token. -/
theorem Worker.Explained.acts (h : w.Explained first events)
    (hregistered : first.registry.find? w.task.id ≠ none) {e : Event} {w' : Worker}
    (hacts : w.Acts (first.run events) e w') (hloyal : e ≠ .revoke w.task.id) :
    w'.Explained first (events ++ [e]) := by
  cases hacts with
  | idle e => exact h.stays hs hregistered e .inl
  | cancelled ended => exact h.stays hs hregistered _ fun _ => .inr (.inr ended)
  | shutDown => exact h.stays hs hregistered _ fun _ => .inr (.inl rfl)
  | revoked => exact absurd rfl hloyal
  | skips => exact .inl rfl
  | calls queued begins =>
    have hbegan : first.Began w.task (events ++ [.start w.task.id]) (first.run events).clock :=
      ⟨events, [], rfl, begins, rfl⟩
    have hkept : Explained { w with cancelled := w.cancelled } first (events ++ [.start w.task.id]) :=
      h.stays hs hregistered _ .inl
    rw [Explained, queued] at hkept
    refine ⟨hkept, _, hbegan, ?_⟩
    rw [budgetMs, settings_run, budgetMs]
  | returns result phase => exact h.returns hs hw hregistered phase result
  | winds e limit phase due => exact h.winds hs hw hregistered phase due
  | stops e phase =>
    rw [Explained, phase] at h
    exact .inr (h.append [e])
  | leaves e => trivial

end Step

end FirewallRollout.Rebuild
