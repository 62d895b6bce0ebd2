import FirewallRollout.Executor.Basic

/-!
# Performances of programs

What is seen of a program from outside: the numbers that it has reported, and its result once it has
one. Nothing is said about the moments at which it goes on or is cancelled, so that an activity performs
its program whenever it has its turns. An executor that counts its commands as it goes never claims more
of them than there are, whether it fails or is cut off.
-/
namespace FirewallRollout.Executor

namespace Act

/-- At some moment a program may go on behind the act. -/
def MayPass (act : Act) : Prop := ∃ cancelled elapsed, act.turn cancelled elapsed = .pass

/-- At some moment a program may fail at the act. -/
def MayStop (act : Act) (f : Failure) : Prop := ∃ cancelled elapsed, act.turn cancelled elapsed = .stop f

theorem eq_of_mayStop {act : Act} {f : Failure} (h : act.MayStop f) :
    act = .check f ∨ ∃ ms, act = .pause ms (some f) := by
  obtain ⟨cancelled, elapsed, h⟩ := h
  cases act with
  | check g =>
    cases cancelled with
    | false => cases h
    | true => exact .inl (congrArg check (Turn.stop.inj h))
  | pause ms onCancel =>
    dsimp only [turn] at h
    split at h
    · exact .inr ⟨ms, by rw [Turn.stop.inj h]⟩
    · split at h <;> cases h
  | awaitCancel => cases cancelled <;> cases h
  | call | report | hang => cases h

end Act

theorem reportsOf_append (acts later : List Act) :
    reportsOf (acts ++ later) = reportsOf acts ++ reportsOf later :=
  List.filterMap_append

/-- What may be seen of a program: its reports so far, and its result if it has one. -/
inductive Performance (p : Program) : List UInt32 → Option Result → Prop
  | going {passed rest : List Act} (split : p.acts = passed ++ rest)
      (passes : ∀ act ∈ passed, act.MayPass) : Performance p (reportsOf passed) none
  | ended (passes : ∀ act ∈ p.acts, act.MayPass) : Performance p (reportsOf p.acts) (some p.ending)
  | stopped {passed rest : List Act} {act : Act} {f : Failure} (split : p.acts = passed ++ act :: rest)
      (passes : ∀ act ∈ passed, act.MayPass) (stops : act.MayStop f) :
      Performance p (reportsOf passed) (some (.error f))

namespace Activity

/-- An activity that is under way in a program has passed what comes before its acts. -/
def Performs (a : Activity) (p : Program) (ns : List UInt32) : Prop :=
  ∃ passed, p.acts = passed ++ a.acts ∧ a.ending = p.ending ∧ (∀ act ∈ passed, act.MayPass) ∧
    reportsOf passed = ns

theorem performs_start (p : Program) (now : Nat) : (start p now).Performs p [] :=
  ⟨[], rfl, rfl, by simp, rfl⟩

theorem Performs.performance {a : Activity} {p : Program} {ns : List UInt32} (h : a.Performs p ns) :
    Performance p ns none := by
  obtain ⟨passed, hsplit, -, hpasses, rfl⟩ := h
  exact .going hsplit hpasses

/-- Going through acts, an activity has to wait at one, or comes to the end, or fails at one. -/
theorem through_cases {now : Nat} {cancelled : Bool} {ending : Result} {acts passed : List Act}
    {since : Nat} {next : Activity ⊕ Result}
    (h : through now cancelled ending acts since = (passed, next)) :
    (∀ act ∈ passed, act.MayPass) ∧
      ((∃ a : Activity, next = .inl a ∧ acts = passed ++ a.acts ∧ a.ending = ending) ∨
        (next = .inr ending ∧ acts = passed) ∨
        ∃ act rest f, next = .inr (.error f) ∧ acts = passed ++ act :: rest ∧ act.MayStop f) := by
  induction acts generalizing since passed with
  | nil =>
    obtain ⟨rfl, rfl⟩ := Prod.mk.inj h
    exact ⟨by simp, .inr (.inl ⟨rfl, rfl⟩)⟩
  | cons act acts ih =>
    rw [through] at h
    split at h
    · next hpass =>
      obtain ⟨rfl, rfl⟩ := Prod.mk.inj h
      obtain ⟨hpasses, hnext⟩ := ih rfl
      refine ⟨List.forall_mem_cons.mpr ⟨⟨cancelled, _, hpass⟩, hpasses⟩, ?_⟩
      rcases hnext with ⟨a, hnext, hacts, hending⟩ | ⟨hnext, hacts⟩ | ⟨stop, rest, f, hnext, hacts, hf⟩
      · exact .inl ⟨a, hnext, congrArg (act :: ·) hacts, hending⟩
      · exact .inr (.inl ⟨hnext, congrArg (act :: ·) hacts⟩)
      · exact .inr (.inr ⟨stop, rest, f, hnext, congrArg (act :: ·) hacts, hf⟩)
    · next f hstop =>
      obtain ⟨rfl, rfl⟩ := Prod.mk.inj h
      exact ⟨by simp, .inr (.inr ⟨act, acts, f, rfl, rfl, cancelled, _, hstop⟩)⟩
    · obtain ⟨rfl, rfl⟩ := Prod.mk.inj h
      exact ⟨by simp, .inl ⟨_, rfl, rfl, rfl⟩⟩

section Poll
variable {a : Activity} {p : Program} {ns : List UInt32} (h : a.Performs p ns) {now : Nat}
  {cancelled : Bool} {passed : List Act}
include h

/-- An activity that goes on still performs its program. -/
theorem Performs.poll_inl {a' : Activity} (hpoll : a.poll now cancelled = (passed, .inl a')) :
    a'.Performs p (ns ++ reportsOf passed) := by
  obtain ⟨before, hsplit, hending, hbefore, rfl⟩ := h
  obtain ⟨hpasses, ⟨_, hnext, hacts, hsame⟩ | ⟨hnext, -⟩ | ⟨_, _, _, hnext, -⟩⟩ := through_cases hpoll
  · obtain rfl := Sum.inl.inj hnext
    refine ⟨before ++ passed, ?_, hsame.trans hending, ?_, reportsOf_append before passed⟩
    · rw [hsplit, hacts, List.append_assoc]
    · exact List.forall_mem_append.mpr ⟨hbefore, hpasses⟩
  · cases hnext
  · cases hnext

/-- The result of an activity is that of its program. -/
theorem Performs.poll_inr {result : Result} (hpoll : a.poll now cancelled = (passed, .inr result)) :
    Performance p (ns ++ reportsOf passed) (some result) := by
  obtain ⟨before, hsplit, hending, hbefore, rfl⟩ := h
  obtain ⟨hpasses, ⟨_, hnext, -⟩ | ⟨hnext, hacts⟩ | ⟨act, rest, f, hnext, hacts, hf⟩⟩ :=
    through_cases hpoll
  · cases hnext
  · obtain rfl := Sum.inr.inj hnext
    have hall : p.acts = before ++ passed := by rw [hsplit, hacts]
    rw [← reportsOf_append, ← hall, hending]
    exact .ended (hall ▸ List.forall_mem_append.mpr ⟨hbefore, hpasses⟩)
  · obtain rfl := Sum.inr.inj hnext
    have hstop : p.acts = (before ++ passed) ++ act :: rest := by
      rw [hsplit, hacts, List.append_assoc]
    rw [← reportsOf_append]
    exact .stopped hstop (List.forall_mem_append.mpr ⟨hbefore, hpasses⟩) hf

end Poll
end Activity

/-- A failure after so many of all commands: it counts these as applied and one more as failed at most,
and there is one more unless nothing was applied. -/
structure Failure.Admitted (f : Failure) (total done : Nat) : Prop where
  processed : f.processed.toNat = done
  failed : f.failed.toNat ≤ 1
  room : done = 0 ∨ done < total

/-- The acts count the commands one by one from so many on, and fail only by what they have counted. -/
def Counted (total : Nat) (ending : Result) : Nat → List Act → Prop
  | done, [] => ∀ f, ending = .error f → f.Admitted total done
  | done, .report n :: rest => n.toNat = done + 1 ∧ Counted total ending (done + 1) rest
  | done, .check f :: rest => f.Admitted total done ∧ Counted total ending done rest
  | done, .pause _ onCancel :: rest =>
    (∀ f, onCancel = some f → f.Admitted total done) ∧ Counted total ending done rest
  | done, _ :: rest => Counted total ending done rest

section Counted
variable {total done : Nat} {ending : Result}

/-- Behind some acts, the count is that of the last report. -/
theorem Counted.append {passed rest : List Act} (h : Counted total ending done (passed ++ rest)) :
    ∃ now, done ≤ now ∧ (∀ n ∈ reportsOf passed, n.toNat ≤ now) ∧ Counted total ending now rest := by
  induction passed generalizing done with
  | nil => exact ⟨done, Nat.le_refl done, by simp [reportsOf], h⟩
  | cons act passed ih =>
    cases act with
    | report n =>
      obtain ⟨hn, hrest⟩ := h
      obtain ⟨now, hle, hreports, hnow⟩ := ih hrest
      exact ⟨now, by omega, List.forall_mem_cons.mpr ⟨by omega, hreports⟩, hnow⟩
    | check f => exact ih h.2
    | pause ms onCancel => exact ih h.2
    | call | awaitCancel | hang => exact ih h

theorem Counted.admitted_of_mayStop {act : Act} {rest : List Act} {f : Failure}
    (h : Counted total ending done (act :: rest)) (hstop : act.MayStop f) : f.Admitted total done := by
  rcases Act.eq_of_mayStop hstop with rfl | ⟨ms, rfl⟩
  · exact h.1
  · exact h.1 f rfl

/-- A program that counts its commands fails with no less than it has reported. -/
theorem Counted.admitted {p : Program} (h : Counted total p.ending 0 p.acts) {ns : List UInt32}
    {f : Failure} (hp : Performance p ns (some (.error f))) :
    f.Admitted total f.processed.toNat ∧ ∀ n ∈ ns, n.toNat ≤ f.processed.toNat := by
  generalize hresult : some (Except.error f) = result at hp
  cases hp with
  | going split passes => cases hresult
  | ended passes =>
    rw [← List.append_nil p.acts] at h
    obtain ⟨now, -, hreports, hend⟩ := h.append
    have hadmitted := hend f (Option.some.inj hresult).symm
    rw [hadmitted.processed]
    exact ⟨hadmitted, hreports⟩
  | stopped split passes stops =>
    obtain rfl := Except.error.inj (Option.some.inj hresult)
    rw [split] at h
    obtain ⟨now, -, hreports, hrest⟩ := h.append
    have hadmitted := hrest.admitted_of_mayStop stops
    rw [hadmitted.processed]
    exact ⟨hadmitted, hreports⟩

end Counted

theorem admitted_cancelled {total done : Nat} (hsize : total < UInt32.size) (hroom : done < total) :
    (Failure.cancelled (.ofNat done)).Admitted total done where
  processed := UInt32.toNat_ofNat_of_lt (by omega)
  failed := Nat.zero_le 1
  room := .inr hroom

/-- A dry run counts the rules that it has waited for. -/
theorem DryRun.counted (delay : Nat) {plan : Plan} (hsize : plan.commands.length < UInt32.size) :
    Counted plan.commands.length (program delay plan).ending 0 (program delay plan).acts := by
  have hfrom : ∀ left done, done + left = plan.commands.length →
      Counted plan.commands.length (.ok ()) done
        ((List.range' done left).flatMap (actsFor delay)) := by
    intro left
    induction left with
    | zero => exact fun done _ f hf => by cases hf
    | succ left ih =>
      intro done hdone
      have hadmitted : (Failure.cancelled (.ofNat done)).Admitted plan.commands.length done :=
        admitted_cancelled hsize (by omega)
      have hreport : (UInt32.ofNat (done + 1)).toNat = done + 1 :=
        UInt32.toNat_ofNat_of_lt (by omega)
      have hrest := ih (done + 1) (by omega)
      rw [List.range'_succ, List.flatMap_cons, actsFor]
      split
      · exact ⟨hadmitted, hreport, hrest⟩
      · refine ⟨fun f hf => ?_, hreport, hrest⟩
        obtain rfl := Option.some.inj hf
        exact hadmitted
  rw [program, List.range_eq_range']
  exact hfrom _ 0 (Nat.zero_add _)

namespace Ssh

/-- Stages that count the rule commands one by one from so many on. -/
def Paced (total : Nat) : Nat → List Stage → Prop
  | _, [] => True
  | done, stage :: rest =>
    stage.done.toNat = done ∧ stage.onCancel.Admitted total done ∧
      match stage.report with
      | some n => n.toNat = done + 1 ∧ Paced total (done + 1) rest
      | none => Paced total done rest

theorem paced_stages {plan : Plan} (hsize : plan.commands.length < UInt32.size) :
    Paced plan.commands.length 0 (stages plan) := by
  have hcommands : ∀ (commands : List String) (done : Nat),
      done + commands.length = plan.commands.length →
      Paced plan.commands.length done (commands.mapIdx fun i => ruleStage (i + done)) := by
    intro commands
    induction commands with
    | nil => exact fun _ _ => trivial
    | cons command commands ih =>
      intro done hdone
      rw [List.length_cons] at hdone
      have hrest := ih (done + 1) (by omega)
      rw [List.mapIdx_cons, Nat.zero_add]
      refine ⟨UInt32.toNat_ofNat_of_lt (by omega), admitted_cancelled hsize (by omega),
        UInt32.toNat_ofNat_of_lt (by omega), ?_⟩
      simpa only [Nat.add_assoc, Nat.add_comm 1] using hrest
  rw [stages]
  induction plan.preamble with
  | nil => exact hcommands plan.commands 0 (Nat.zero_add _)
  | cons command preamble ih =>
    exact ⟨rfl, ⟨rfl, Nat.le_refl 1, .inl rfl⟩, ih⟩

theorem counted_programFrom (ssh : Ssh) (target : String) {total done : Nat} {left : List Stage}
    (h : Paced total done left) (remotes : List Remote) :
    Counted total (ssh.programFrom target left remotes).ending done
      (ssh.programFrom target left remotes).acts := by
  induction left generalizing done remotes with
  | nil => exact fun f hf => by cases hf
  | cons stage rest ih =>
    obtain ⟨hdone, hcancel, hreport⟩ := h
    -- what comes behind the acts of one command decides
    have hattempt : ∀ {ending : Result} {later : List Act}, Counted total ending done later →
        Counted total ending done (ssh.attempt target stage (remotes.headD {}) ++ later) := by
      intro ending later hlater
      have hpause : Counted total ending done
          (.pause (ssh.awaited target stage (remotes.headD {})) (some stage.onCancel) :: later) := by
        refine ⟨fun f hf => ?_, hlater⟩
        obtain rfl := Option.some.inj hf
        exact hcancel
      rw [attempt]
      cases ssh.launched? target stage (remotes.headD {}) <;> exact hpause
    unfold programFrom
    dsimp only
    split
    · next message _ =>
      have hend : Counted total (.error ⟨stage.done, 1, message⟩) done [] := by
        intro f hf
        obtain rfl := Except.error.inj hf
        exact ⟨hdone, Nat.le_refl 1, hcancel.room⟩
      apply hattempt
      rw [afterFault]
      split
      · exact ⟨hcancel, hend⟩
      · exact hend
    · rw [List.append_assoc]
      apply hattempt
      cases hn : stage.report with
      | some n =>
        rw [hn] at hreport
        exact ⟨hreport.1, ih hreport.2 _⟩
      | none =>
        rw [hn] at hreport
        exact ih hreport _

/-- A remote shell counts the commands that succeeded. -/
theorem counted (ssh : Ssh) (remotes : List Remote) {plan : Plan}
    (hsize : plan.commands.length < UInt32.size) :
    Counted plan.commands.length (ssh.program remotes plan).ending 0 (ssh.program remotes plan).acts := by
  unfold program
  split
  · exact ssh.counted_programFrom _ (paced_stages hsize) remotes
  · intro f hf
    obtain rfl := Except.error.inj hf
    exact ⟨rfl, Nat.le_refl 1, .inl rfl⟩

end Ssh

/-- The executors that apply the commands of a plan one by one. -/
inductive Stepwise : Executor → Prop
  | dryRun (delay : Nat) : Stepwise (.dryRun delay)
  | ssh (shell : Ssh) (remotes : List Remote) : Stepwise (.ssh shell remotes)

theorem Stepwise.counted {executor : Executor} (h : executor.Stepwise) (call : Nat) {plan : Plan}
    (hsize : plan.commands.length < UInt32.size) :
    Counted plan.commands.length (executor.program call plan).ending 0
      (executor.program call plan).acts := by
  cases h with
  | dryRun delay => exact DryRun.counted delay hsize
  | ssh shell remotes => exact shell.counted remotes hsize

end FirewallRollout.Executor
