import FirewallRollout.Executor.Basic
import FirewallRollout.Proofs.Executor.Course

/-!
# How much of a plan is applied

The executors that take the commands of a plan one by one get through a beginning of it, whenever they
are cancelled and whatever their commands do. They know how long this beginning is: what they report
and what a failure tells is the number of rule commands that they have seen succeed.
-/
namespace FirewallRollout.Executor

/-- The commands of a plan, in the order in which they are applied. -/
def Plan.sequence (plan : Plan) : List String := plan.preamble ++ plan.commands

/-- The number of rule commands that were seen to succeed, among all commands of a plan. -/
def Plan.applied (plan : Plan) (saw : Nat → Bool) : Nat :=
  (List.range plan.commands.length).countP fun i => saw (plan.preamble.length + i)

/-- A call that tells exactly which commands it has seen succeed. -/
structure Tallied (plan : Plan) (saw : Nat → Bool) (passed : List Act) (fate : Fate) : Prop where
  /-- One report for each rule command, with its number. -/
  reported : (reportsOf passed).map UInt32.toNat = List.range' 1 (plan.applied saw)
  /-- It succeeds only when every command has. -/
  complete : fate.result? = some (.ok ()) →
    (∀ i < plan.sequence.length, saw i = true) ∧ plan.applied saw = plan.commands.length
  processed : ∀ f, fate.result? = some (.error f) → f.processed.toNat = plan.applied saw

namespace DryRun

/-- The rules that a dry run has waited for. -/
def waited (passed : List Act) : Nat :=
  passed.countP fun
    | .report _ => false
    | _ => true

/-- A dry run sees a rule command succeed when it has waited for it, and a flush anyway. -/
def saw (plan : Plan) (passed : List Act) (i : Nat) : Bool :=
  i < plan.preamble.length + waited passed

end DryRun

namespace Ssh

/-- The commands that came to an end by themselves. -/
def heard (passed : List Act) : Nat :=
  passed.countP fun
    | .pause .. => true
    | _ => false

/-- Why a command of a plan fails, by its number. -/
def faultAt? (ssh : Ssh) (target : String) (remotes : List Remote) (plan : Plan) (i : Nat) :
    Option String :=
  plan.sequence[i]?.bind fun command => ssh.fault? target command (remotes[i]?.getD {})

/-- A remote shell sees a command succeed when it comes to its end, and this is no failure. -/
def saw (ssh : Ssh) (target : String) (remotes : List Remote) (plan : Plan) (passed : List Act)
    (i : Nat) : Bool :=
  i < heard passed && (ssh.faultAt? target remotes plan i).isNone

/-- A call that starts a beginning of the plan, and a further command only after a success. What it
sees succeed it has started. -/
structure InOrder (ssh : Ssh) (target : String) (plan : Plan) (saw : Nat → Bool)
    (passed : List Act) : Prop where
  started : callsOf passed <+: plan.sequence.map (ssh.wordsFor target)
  onward : ∀ i, i + 1 < (callsOf passed).length → saw i = true
  seen : ∀ i, saw i = true → ∃ command, plan.sequence[i]? = some command ∧
    (callsOf passed)[i]? = some (ssh.wordsFor target command)

/-- A call that fails by itself, and not by its cancellation, only with the message of a command that
fails, all commands before it having been seen to succeed. -/
def Refused (ssh : Ssh) (target : String) (remotes : List Remote) (plan : Plan) (saw : Nat → Bool)
    (fate : Fate) : Prop :=
  ∀ f, fate = .ended (.error f) →
    ∃ i, ssh.faultAt? target remotes plan i = some f.message ∧ ∀ j < i, saw j = true

end Ssh

/-! ## Counting -/

theorem applied_of_threshold {plan : Plan} {saw : Nat → Bool} {m : Nat}
    (hm : m ≤ plan.sequence.length)
    (hsaw : ∀ i < plan.sequence.length, saw i = true ↔ i < m) :
    plan.applied saw = m - plan.preamble.length := by
  have hlength : plan.sequence.length = plan.preamble.length + plan.commands.length :=
    List.length_append
  have hcount : ∀ n ≤ plan.commands.length,
      (List.range n).countP (fun i => saw (plan.preamble.length + i)) =
        min n (m - plan.preamble.length) := by
    intro n hn
    induction n with
    | zero => simp
    | succ n ih =>
      have hlast := hsaw (plan.preamble.length + n) (by omega)
      rw [List.range_succ, List.countP_append, ih (by omega), List.countP_singleton]
      split
      · next h =>
        have := hlast.mp h
        omega
      · next h =>
        have := mt hlast.mpr h
        omega
  rw [Plan.applied, hcount _ (Nat.le_refl _)]
  omega

/-- A call that has seen the first commands succeed and no others tells so. -/
theorem tallied_of_threshold {plan : Plan} {saw : Nat → Bool} {passed : List Act} {fate : Fate}
    {m : Nat} (hm : m ≤ plan.sequence.length)
    (hsaw : ∀ i < plan.sequence.length, saw i = true ↔ i < m)
    (hreports : (reportsOf passed).map UInt32.toNat = List.range' 1 (m - plan.preamble.length))
    (hok : fate.result? = some (.ok ()) → m = plan.sequence.length)
    (herror : ∀ f, fate.result? = some (.error f) →
      f.processed.toNat = m - plan.preamble.length) :
    Tallied plan saw passed fate := by
  have happlied := applied_of_threshold hm hsaw
  refine ⟨happlied ▸ hreports, fun hresult => ?_, happlied ▸ herror⟩
  obtain rfl := hok hresult
  refine ⟨fun i hi => (hsaw i hi).mpr hi, ?_⟩
  rw [happlied, Plan.sequence, List.length_append]
  omega

/-! ## The dry run -/

namespace DryRun

/-- A dry run goes on rule by rule and may stop before each of them. -/
inductive Halt (ending : Result) (left done : Nat) : Nat → Fate → Prop
  | ended : Halt ending left done left (.ended ending)
  | before {m : Nat} {fate : Fate} (room : m < left)
      (halts : fate = .underWay ∨ fate = .cutOff (.cancelled (.ofNat (done + m)))) :
      Halt ending left done m fate

theorem course_actsFor {delay done : Nat} {ending : Result} {cancelled : Bool}
    {passed behind : List Act} {fate : Fate}
    (h : Course ending cancelled (actsFor delay done ++ behind) passed fate) :
    passed = [] ∧ (fate = .underWay ∨ fate = .cutOff (.cancelled (.ofNat done))) ∨
      ∃ c later, Course ending c behind later fate ∧ waited passed = waited later + 1 ∧
        reportsOf passed = .ofNat (done + 1) :: reportsOf later := by
  -- the wait, whichever it is, and then the report
  obtain hstays | ⟨c, wait, waiting, hwait, rfl, hwaiting⟩ :
      passed = [] ∧ (fate = .underWay ∨ fate = .cutOff (.cancelled (.ofNat done))) ∨
      ∃ c wait later, (∀ n, wait ≠ .report n) ∧ passed = wait :: later ∧
        Course ending c (.report (.ofNat (done + 1)) :: behind) later fate := by
    rw [actsFor] at h
    split at h
    · obtain ⟨hpassed, hfate⟩ | ⟨c, later, hpassed, hlater⟩ := h.of_check
      · exact .inl ⟨hpassed, .inr hfate⟩
      · exact .inr ⟨c, _, later, by simp, hpassed, hlater⟩
    · obtain hstays | ⟨c, later, hpassed, hlater⟩ := h.of_pause
      · exact .inl hstays
      · exact .inr ⟨c, _, later, by simp, hpassed, hlater⟩
  · exact .inl hstays
  · obtain ⟨c, later, rfl, hlater⟩ := hwaiting.of_report
    refine .inr ⟨c, later, hlater, ?_, ?_⟩
    · cases wait with
      | report n => exact absurd rfl (hwait n)
      | _ => simp [waited]
    · cases wait with
      | report n => exact absurd rfl (hwait n)
      | _ => simp [reportsOf]

theorem course_rules {delay left done : Nat} {ending : Result} {cancelled : Bool}
    {passed : List Act} {fate : Fate}
    (h : Course ending cancelled ((List.range' done left).flatMap (actsFor delay)) passed fate) :
    ∃ m, Halt ending left done m fate ∧ waited passed = m ∧
      reportsOf passed = (List.range' (done + 1) m).map UInt32.ofNat := by
  induction left generalizing done cancelled passed with
  | zero =>
    obtain ⟨rfl, rfl⟩ := h.of_nil
    exact ⟨0, .ended, rfl, rfl⟩
  | succ left ih =>
    rw [List.range'_succ, List.flatMap_cons] at h
    obtain ⟨rfl, hfate⟩ | ⟨c, later, hlater, hwaited, hreports⟩ := course_actsFor h
    · exact ⟨0, .before (Nat.succ_pos left) hfate, rfl, rfl⟩
    · obtain ⟨m, hhalt, hmore, hnumbers⟩ := ih hlater
      refine ⟨m + 1, ?_, by rw [hwaited, hmore], ?_⟩
      · cases hhalt with
        | ended => exact .ended
        | before room halts =>
          refine .before (Nat.succ_lt_succ room) ?_
          rwa [Nat.add_assoc, Nat.add_comm 1] at halts
      · rw [hreports, hnumbers, List.range'_succ, List.map_cons]

variable {delay : Nat} {plan : Plan} {passed : List Act} {fate : Fate}

theorem course_program (h : (program delay plan).Course passed fate) :
    ∃ m, Halt (.ok ()) plan.commands.length 0 m fate ∧ waited passed = m ∧
      reportsOf passed = (List.range' 1 m).map UInt32.ofNat := by
  unfold Program.Course program at h
  rw [List.range_eq_range'] at h
  exact course_rules h

theorem Halt.le {m : Nat} (h : Halt (.ok ()) plan.commands.length 0 m fate) :
    m ≤ plan.commands.length := by
  cases h with
  | ended => exact Nat.le_refl _
  | before room => exact Nat.le_of_lt room

theorem applied_saw {m : Nat} (hle : m ≤ plan.commands.length) (hm : waited passed = m) :
    plan.applied (saw plan passed) = m := by
  have hsequence : plan.preamble.length + m ≤ plan.sequence.length := by
    rw [Plan.sequence, List.length_append]
    omega
  rw [applied_of_threshold hsequence fun i _ => by rw [saw, decide_eq_true_iff, hm],
    Nat.add_sub_cancel_left]

theorem tallied (hsize : plan.commands.length < UInt32.size)
    (h : (program delay plan).Course passed fate) : Tallied plan (saw plan passed) passed fate := by
  obtain ⟨m, hhalt, hwaited, hreports⟩ := course_program h
  have hle : m ≤ plan.commands.length := hhalt.le
  have hlength : plan.sequence.length = plan.preamble.length + plan.commands.length :=
    List.length_append
  have hcount : plan.preamble.length + m - plan.preamble.length = m := Nat.add_sub_cancel_left _ m
  refine tallied_of_threshold (m := plan.preamble.length + m) (by omega)
    (fun i _ => by rw [saw, decide_eq_true_iff, hwaited]) ?_ ?_ ?_
  · have hnumber : ∀ n ∈ List.range' 1 m, (UInt32.toNat ∘ UInt32.ofNat) n = n := by
      intro n hn
      have := List.mem_range'_1.mp hn
      exact UInt32.toNat_ofNat_of_lt (by omega)
    rw [hreports, hcount, List.map_map, List.map_congr_left hnumber, List.map_id']
  · intro hok
    cases hhalt with
    | ended => exact hlength.symm
    | before room halts => obtain rfl | rfl := halts <;> cases hok
  · intro f hf
    rw [hcount]
    cases hhalt with
    | ended => cases hf
    | before room halts =>
      obtain rfl | rfl := halts
      · cases hf
      · cases hf
        rw [Nat.zero_add]
        exact UInt32.toNat_ofNat_of_lt (by omega)

/-- A dry run stops early only when it is cancelled. -/
theorem eq_cutOff_of_error (h : (program delay plan).Course passed fate) {f : Failure}
    (hf : fate.result? = some (.error f)) : fate = .cutOff f := by
  obtain ⟨m, hhalt, -⟩ := course_program h
  cases hhalt with
  | ended => cases hf
  | before room halts =>
    obtain rfl | rfl := halts
    · cases hf
    · cases hf
      rfl

end DryRun

/-! ## The remote shell -/

namespace Ssh

theorem stages_getElem? (plan : Plan) (i : Nat) :
    (stages plan)[i]? = plan.sequence[i]?.map fun command =>
      if i < plan.preamble.length then flushStage command
      else ruleStage (i - plan.preamble.length) command := by
  unfold stages Plan.sequence
  rw [List.getElem?_append, List.getElem?_append, List.length_map]
  split <;> simp

theorem map_command_stages (plan : Plan) : (stages plan).map Stage.command = plan.sequence := by
  apply List.ext_getElem?
  intro i
  rw [List.getElem?_map, stages_getElem?]
  cases plan.sequence[i]? with
  | none => rfl
  | some command =>
    simp only [Option.map_some]
    split <;> rfl

theorem length_stages (plan : Plan) : (stages plan).length = plan.sequence.length := by
  rw [← map_command_stages, List.length_map]

section Run
variable (ssh : Ssh) (target : String)

theorem launched_of_fault?_eq_none {stage : Stage} {r : Remote}
    (h : ssh.fault? target stage.command r = none) :
    ssh.launched? target stage r = some (ssh.wordsFor target stage.command) := by
  unfold fault? at h
  split at h
  · cases h
  · next hlaunch => simp [launched?, hlaunch]

theorem eq_wordsFor_of_launched? {stage : Stage} {r : Remote} {words : List String}
    (h : ssh.launched? target stage r = some words) :
    words = ssh.wordsFor target stage.command := by
  unfold launched? at h
  dsimp only at h
  split at h
  · cases h
  · exact (Option.some.inj h).symm

/-- Where a call over some commands stands that has seen so many of them succeed: at none of them any
more, or at the next. Given is what it has launched there, and how many ends it has heard of. -/
inductive Halt (left : List Stage) (remotes : List Remote) (m : Nat) :
    Option (List String) → Nat → Fate → Prop
  | ended (all : m = left.length) : Halt left remotes m none 0 (.ended (.ok ()))
  /-- The command is not at its end, or its end was not waited for. -/
  | pending {stage : Stage} {fate : Fate} (next : left[m]? = some stage)
      (halts : fate = .underWay ∨ fate = .cutOff stage.onCancel) :
      Halt left remotes m (ssh.launched? target stage (remotes[m]?.getD {})) 0 fate
  | failed {stage : Stage} {fate : Fate} {message : String} (next : left[m]? = some stage)
      (fault : ssh.fault? target stage.command (remotes[m]?.getD {}) = some message)
      (halts : fate = .ended (.error ⟨stage.done, 1, message⟩) ∨
        stage.excused = true ∧ fate = .cutOff stage.onCancel) :
      Halt left remotes m (ssh.launched? target stage (remotes[m]?.getD {})) 1 fate

/-- A call over some commands that has seen the first of them succeed and has come no further than to
the next. -/
structure Reaches (left : List Stage) (remotes : List Remote) (passed : List Act) (fate : Fate)
    (m : Nat) : Prop where
  le : m ≤ left.length
  succeeded : ∀ i < m, ∀ stage, left[i]? = some stage →
    ssh.fault? target stage.command (remotes[i]?.getD {}) = none
  reports : reportsOf passed = (left.take m).filterMap Stage.report
  halts : ∃ launched ends, Halt ssh target left remotes m launched ends fate ∧
    callsOf passed =
      (left.take m).map (fun stage => ssh.wordsFor target stage.command) ++ launched.toList ∧
    heard passed = m + ends

theorem course_attempt {stage : Stage} {r : Remote} {ending : Result} {cancelled : Bool}
    {passed behind : List Act} {fate : Fate}
    (h : Course ending cancelled (ssh.attempt target stage r ++ behind) passed fate) :
    (fate = .underWay ∨ fate = .cutOff stage.onCancel) ∧
        passed = (ssh.launched? target stage r).toList.map Act.call ∨
      ∃ c later, passed = ssh.attempt target stage r ++ later ∧
        Course ending c behind later fate := by
  unfold attempt at h ⊢
  rw [List.append_assoc] at h
  have hpause : ∀ {c passed}, Course ending c
      (.pause (ssh.awaited target stage r) (some stage.onCancel) :: behind) passed fate →
      (fate = .underWay ∨ fate = .cutOff stage.onCancel) ∧ passed = [] ∨
      ∃ c later, passed = .pause (ssh.awaited target stage r) (some stage.onCancel) :: later ∧
        Course ending c behind later fate := by
    intro c passed h
    obtain ⟨hpassed, hfate⟩ | hgoesOn := h.of_pause
    · exact .inl ⟨hfate, hpassed⟩
    · exact .inr hgoesOn
  cases hlaunched : ssh.launched? target stage r with
  | none =>
    rw [hlaunched] at h
    exact hpause h
  | some words =>
    rw [hlaunched] at h
    obtain ⟨c, waiting, rfl, hwaiting⟩ := Course.of_call h
    obtain ⟨hfate, rfl⟩ | ⟨c, later, rfl, hlater⟩ := hpause hwaiting
    · exact .inl ⟨hfate, rfl⟩
    · exact .inr ⟨c, later, rfl, hlater⟩

section Attempt
variable (stage : Stage) (r : Remote) (later : List Act)

@[simp] theorem reportsOf_attempt :
    reportsOf (ssh.attempt target stage r ++ later) = reportsOf later := by
  unfold attempt
  cases ssh.launched? target stage r <;> simp [reportsOf]

@[simp] theorem callsOf_attempt : callsOf (ssh.attempt target stage r ++ later) =
    (ssh.launched? target stage r).toList ++ callsOf later := by
  unfold attempt
  cases ssh.launched? target stage r <;> simp [callsOf]

@[simp] theorem heard_attempt :
    heard (ssh.attempt target stage r ++ later) = heard later + 1 := by
  unfold attempt
  cases ssh.launched? target stage r <;> simp [heard]

@[simp] theorem reportsOf_report :
    reportsOf (stage.report.toList.map Act.report ++ later) =
      stage.report.toList ++ reportsOf later := by
  cases stage.report <;> simp [reportsOf]

@[simp] theorem callsOf_report :
    callsOf (stage.report.toList.map Act.report ++ later) = callsOf later := by
  cases stage.report <;> simp [callsOf]

@[simp] theorem heard_report :
    heard (stage.report.toList.map Act.report ++ later) = heard later := by
  cases stage.report <;> simp [heard]

end Attempt

section Step
variable {ssh target} {stage : Stage} {rest : List Stage} {remotes : List Remote}
  {passed : List Act} {fate : Fate} {m : Nat} {launched : Option (List String)} {ends : Nat}

theorem Halt.cons (h : Halt ssh target rest remotes.tail m launched ends fate) :
    Halt ssh target (stage :: rest) remotes (m + 1) launched ends fate := by
  cases h with
  | ended all => exact .ended (congrArg (· + 1) all)
  | pending next halts =>
    rw [List.getElem?_tail]
    exact .pending next halts
  | failed next fault halts =>
    rw [List.getElem?_tail] at fault ⊢
    exact .failed next fault halts

/-- One more command that succeeded before all others. -/
theorem Reaches.cons (h : Reaches ssh target rest remotes.tail passed fate m)
    (hsuccess : ssh.fault? target stage.command (remotes[0]?.getD {}) = none) :
    Reaches ssh target (stage :: rest) remotes
      (ssh.attempt target stage (remotes[0]?.getD {}) ++
        (stage.report.toList.map Act.report ++ passed)) fate (m + 1) := by
  obtain ⟨launched, ends, hhalt, hcalls, hheard⟩ := h.halts
  refine ⟨Nat.succ_le_succ h.le, ?_, ?_, launched, ends, hhalt.cons, ?_, ?_⟩
  · intro i hi other hother
    cases i with
    | zero =>
      obtain rfl := Option.some.inj hother
      exact hsuccess
    | succ i =>
      rw [← List.getElem?_tail]
      exact h.succeeded i (Nat.lt_of_succ_lt_succ hi) other hother
  · rw [reportsOf_attempt, reportsOf_report, h.reports, List.take_succ_cons, List.filterMap_cons]
    cases stage.report <;> rfl
  · rw [callsOf_attempt, callsOf_report, hcalls, launched_of_fault?_eq_none ssh target hsuccess]
    rfl
  · rw [heard_attempt, heard_report, hheard]
    omega

/-- A call stands at its first command. -/
theorem reaches_zero {left : List Stage} (hhalt : Halt ssh target left remotes 0 launched ends fate)
    (hreports : reportsOf passed = []) (hcalls : callsOf passed = launched.toList)
    (hheard : heard passed = ends) : Reaches ssh target left remotes passed fate 0 where
  le := Nat.zero_le _
  succeeded := fun i hi => absurd hi (Nat.not_lt_zero i)
  reports := hreports
  halts := ⟨launched, ends, hhalt, hcalls, by rw [hheard, Nat.zero_add]⟩

end Step

/-- A call does not get past its first command. -/
theorem reaches_pending {stage : Stage} {rest : List Stage} {remotes : List Remote} {fate : Fate}
    (halts : fate = .underWay ∨ fate = .cutOff stage.onCancel) :
    Reaches ssh target (stage :: rest) remotes
      ((ssh.launched? target stage (remotes[0]?.getD {})).toList.map Act.call) fate 0 := by
  refine reaches_zero (.pending rfl halts) ?_ ?_ ?_ <;>
    cases ssh.launched? target stage (remotes[0]?.getD {}) <;> rfl

theorem course_afterFault {stage : Stage} {message : String} {cancelled : Bool}
    {passed : List Act} {fate : Fate}
    (h : Course (.error ⟨stage.done, 1, message⟩) cancelled (afterFault stage) passed fate) :
    (fate = .ended (.error ⟨stage.done, 1, message⟩) ∨
      stage.excused = true ∧ fate = .cutOff stage.onCancel) ∧
    reportsOf passed = [] ∧ callsOf passed = [] ∧ heard passed = 0 := by
  unfold afterFault at h
  split at h
  · next hexcused =>
    obtain ⟨rfl, hfate⟩ | ⟨c, last, rfl, hlast⟩ := h.of_check
    · exact ⟨.inr ⟨hexcused, hfate⟩, rfl, rfl, rfl⟩
    · obtain ⟨rfl, hfate⟩ := hlast.of_nil
      exact ⟨.inl hfate, rfl, rfl, rfl⟩
  · obtain ⟨rfl, hfate⟩ := h.of_nil
    exact ⟨.inl hfate, rfl, rfl, rfl⟩

theorem course_report {stage : Stage} {ending : Result} {cancelled : Bool}
    {passed behind : List Act} {fate : Fate}
    (h : Course ending cancelled (stage.report.toList.map Act.report ++ behind) passed fate) :
    ∃ c later, passed = stage.report.toList.map Act.report ++ later ∧
      Course ending c behind later fate := by
  cases hreport : stage.report with
  | none =>
    rw [hreport] at h
    exact ⟨cancelled, passed, rfl, h⟩
  | some n =>
    rw [hreport] at h
    exact Course.of_report h

/-- Every course over some commands reaches one of them, or gets through. -/
theorem reaches_programFrom {left : List Stage} {remotes : List Remote} {cancelled : Bool}
    {passed : List Act} {fate : Fate}
    (h : Course (ssh.programFrom target left remotes).ending cancelled
      (ssh.programFrom target left remotes).acts passed fate) :
    ∃ m, Reaches ssh target left remotes passed fate m := by
  induction left generalizing remotes cancelled passed with
  | nil =>
    obtain ⟨rfl, rfl⟩ := h.of_nil
    exact ⟨0, reaches_zero (.ended rfl) rfl rfl rfl⟩
  | cons stage rest ih =>
    unfold programFrom at h
    dsimp only at h
    rw [List.headD_eq_head?_getD, List.head?_eq_getElem?] at h
    split at h
    · next message hfault =>
      obtain ⟨hfate, rfl⟩ | ⟨c, later, rfl, hlater⟩ := course_attempt ssh target h
      · exact ⟨0, reaches_pending ssh target hfate⟩
      · obtain ⟨hfate, hreports, hcalls, hheard⟩ := course_afterFault hlater
        refine ⟨0, reaches_zero (.failed rfl hfault hfate) ?_ ?_ ?_⟩
        · rw [reportsOf_attempt, hreports]
        · rw [callsOf_attempt, hcalls, List.append_nil]
        · rw [heard_attempt, hheard]
    · next hsuccess =>
      rw [List.append_assoc] at h
      obtain ⟨hfate, rfl⟩ | ⟨c, later, rfl, hlater⟩ := course_attempt ssh target h
      · exact ⟨0, reaches_pending ssh target hfate⟩
      · obtain ⟨c, last, rfl, hlast⟩ := course_report hlater
        obtain ⟨m, hm⟩ := ih hlast
        exact ⟨m + 1, hm.cons hsuccess⟩

end Run

section Plan
variable {ssh : Ssh} {target : String} {remotes : List Remote} {plan : Plan} {passed : List Act}
  {fate : Fate} {m : Nat}

theorem faultAt?_eq_of_getElem? {i : Nat} {stage : Stage} (h : (stages plan)[i]? = some stage) :
    ssh.faultAt? target remotes plan i =
      ssh.fault? target stage.command (remotes[i]?.getD {}) := by
  rw [faultAt?, ← map_command_stages, List.getElem?_map, h]
  rfl

/-- Flushes do not count. -/
theorem toNat_of_getElem?_stages (hsize : plan.commands.length < UInt32.size) {stage : Stage}
    (h : (stages plan)[m]? = some stage) :
    stage.done.toNat = m - plan.preamble.length ∧
      stage.onCancel.processed.toNat = m - plan.preamble.length := by
  have hm : m < plan.preamble.length + plan.commands.length := by
    rw [← List.length_append, ← Plan.sequence, ← length_stages]
    exact (List.getElem?_eq_some_iff.mp h).1
  rw [stages_getElem?] at h
  obtain ⟨command, -, rfl⟩ := Option.map_eq_some_iff.mp h
  split
  · next hflush =>
    rw [Nat.sub_eq_zero_of_le (Nat.le_of_lt hflush)]
    exact ⟨rfl, rfl⟩
  · have hdone : (UInt32.ofNat (m - plan.preamble.length)).toNat = m - plan.preamble.length :=
      UInt32.toNat_ofNat_of_lt (by omega)
    exact ⟨hdone, hdone⟩

/-- The rules among the first commands are reported by their numbers. -/
theorem reports_take_stages (hsize : plan.commands.length < UInt32.size)
    (hm : m ≤ (stages plan).length) :
    (((stages plan).take m).filterMap Stage.report).map UInt32.toNat =
      List.range' 1 (m - plan.preamble.length) := by
  have hlength : (stages plan).length = plan.preamble.length + plan.commands.length := by
    rw [length_stages, Plan.sequence, List.length_append]
  induction m with
  | zero => simp
  | succ m ih =>
    have hget : (stages plan)[m]? = some (stages plan)[m] := List.getElem?_eq_getElem hm
    rw [List.take_add_one, List.filterMap_append, List.map_append, ih (by omega), hget]
    rw [stages_getElem?] at hget
    obtain ⟨command, -, hstage⟩ := Option.map_eq_some_iff.mp hget
    rw [← hstage]
    split
    · next hflush =>
      rw [Nat.sub_eq_zero_of_le hflush, Nat.sub_eq_zero_of_le (Nat.le_of_lt hflush)]
      rfl
    · next hrule =>
      have hnumber : (UInt32.ofNat (m - plan.preamble.length + 1)).toNat =
          1 + (m - plan.preamble.length) := by
        exact (UInt32.toNat_ofNat_of_lt (by omega)).trans (Nat.add_comm _ _)
      rw [Nat.succ_sub (Nat.le_of_not_lt hrule), List.range'_1_concat]
      exact congrArg (fun n => List.range' 1 (m - plan.preamble.length) ++ [n]) hnumber

theorem Reaches.saw_iff (h : Reaches ssh target (stages plan) remotes passed fate m) {i : Nat}
    (hi : i < (stages plan).length) : ssh.saw target remotes plan passed i = true ↔ i < m := by
  obtain ⟨launched, ends, hhalt, -, hheard⟩ := h.halts
  have hget : (stages plan)[i]? = some (stages plan)[i] := List.getElem?_eq_getElem hi
  rw [saw, hheard, faultAt?_eq_of_getElem? hget, Bool.and_eq_true, decide_eq_true_iff]
  constructor
  · rintro ⟨hends, hsuccess⟩
    cases hhalt with
    | ended | pending => exact hends
    | failed next fault =>
      -- the last end heard of is the failure itself
      refine Nat.lt_of_le_of_ne (Nat.le_of_lt_succ hends) fun him => ?_
      subst him
      obtain rfl := Option.some.inj (hget.symm.trans next)
      rw [fault] at hsuccess
      cases hsuccess
  · intro him
    exact ⟨by omega, by rw [h.succeeded i him _ hget]; rfl⟩

/-- What is seen to succeed is among the commands of the plan. -/
theorem Reaches.lt_of_saw (h : Reaches ssh target (stages plan) remotes passed fate m) {i : Nat}
    (hi : ssh.saw target remotes plan passed i = true) : i < m := by
  obtain ⟨launched, ends, hhalt, -, hheard⟩ := h.halts
  have hends : i < m + ends := by
    rw [saw, Bool.and_eq_true, decide_eq_true_iff, hheard] at hi
    exact hi.1
  have hroom : m + ends ≤ (stages plan).length := by
    cases hhalt with
    | ended | pending => exact h.le
    | failed next fault => exact (List.getElem?_eq_some_iff.mp next).1
  exact (h.saw_iff (Nat.lt_of_lt_of_le hends hroom)).mp hi

theorem Reaches.inOrder (h : Reaches ssh target (stages plan) remotes passed fate m) :
    InOrder ssh target plan (ssh.saw target remotes plan passed) passed := by
  obtain ⟨launched, ends, hhalt, hcalls, -⟩ := h.halts
  have hwords : (stages plan).map (fun stage => ssh.wordsFor target stage.command) =
      plan.sequence.map (ssh.wordsFor target) := by
    rw [← map_command_stages, List.map_map]
    rfl
  have hnext : ∀ words, launched = some words →
      (plan.sequence.map (ssh.wordsFor target))[m]? = some words := by
    intro words hlaunched
    rw [← hwords, List.getElem?_map]
    cases hhalt with
    | ended => cases hlaunched
    | pending next | failed next =>
      rw [next, Option.map_some, ← eq_wordsFor_of_launched? ssh target hlaunched]
  have hm : m ≤ (plan.sequence.map (ssh.wordsFor target)).length := by
    rw [← hwords, List.length_map]
    exact h.le
  rw [List.map_take, hwords] at hcalls
  refine ⟨?_, ?_, ?_⟩
  · rw [hcalls]
    cases hlaunched : launched with
    | none =>
      rw [Option.toList_none, List.append_nil]
      exact List.take_prefix m _
    | some words =>
      have htake := List.take_add_one (l := plan.sequence.map (ssh.wordsFor target)) (i := m)
      rw [hnext words hlaunched] at htake
      rw [← htake]
      exact List.take_prefix (m + 1) _
  · intro i hi
    have him : i < m := by
      rw [hcalls, List.length_append, List.length_take_of_le hm] at hi
      have : launched.toList.length ≤ 1 := by cases launched <;> simp
      omega
    exact (h.saw_iff (Nat.lt_of_lt_of_le him h.le)).mpr him
  · intro i hi
    have him := h.lt_of_saw hi
    have hlength : i < plan.sequence.length := length_stages plan ▸ Nat.lt_of_lt_of_le him h.le
    have hget : plan.sequence[i]? = some plan.sequence[i] := List.getElem?_eq_getElem hlength
    refine ⟨plan.sequence[i], hget, ?_⟩
    rw [hcalls, List.getElem?_append_left (by rwa [List.length_take_of_le hm]),
      List.getElem?_take_of_lt him, List.getElem?_map, hget, Option.map_some]

theorem Reaches.refused (h : Reaches ssh target (stages plan) remotes passed fate m) :
    Refused ssh target remotes plan (ssh.saw target remotes plan passed) fate := by
  rintro f rfl
  obtain ⟨launched, ends, hhalt, -, -⟩ := h.halts
  cases hhalt with
  | pending next halts => simp at halts
  | failed next fault halts =>
    obtain hended | ⟨-, hcut⟩ := halts
    · cases hended
      refine ⟨m, by rw [faultAt?_eq_of_getElem? next, fault], fun j hj => ?_⟩
      exact (h.saw_iff (Nat.lt_of_lt_of_le hj h.le)).mpr hj
    · cases hcut

theorem Reaches.tallied (hsize : plan.commands.length < UInt32.size)
    (h : Reaches ssh target (stages plan) remotes passed fate m) :
    Tallied plan (ssh.saw target remotes plan passed) passed fate := by
  obtain ⟨launched, ends, hhalt, -, -⟩ := h.halts
  have hlength := length_stages plan
  refine tallied_of_threshold (hlength ▸ h.le) (fun i hi => h.saw_iff (hlength ▸ hi)) ?_ ?_ ?_
  · rw [h.reports]
    exact reports_take_stages hsize h.le
  · intro hok
    cases hhalt with
    | ended all => exact all.trans hlength
    | pending next halts => obtain rfl | rfl := halts <;> cases hok
    | failed next fault halts => obtain rfl | ⟨-, rfl⟩ := halts <;> cases hok
  · intro f hf
    cases hhalt with
    | ended => cases hf
    | pending next halts =>
      obtain rfl | rfl := halts
      · cases hf
      · cases hf
        exact (toNat_of_getElem?_stages hsize next).2
    | failed next fault halts =>
      obtain rfl | ⟨-, rfl⟩ := halts
      · cases hf
        exact (toNat_of_getElem?_stages hsize next).1
      · cases hf
        exact (toNat_of_getElem?_stages hsize next).2

/-- A call with a target stands somewhere in the plan. -/
theorem reaches_program (htarget : ssh.targets.lookup plan.server = some target)
    (h : (ssh.program remotes plan).Course passed fate) :
    ∃ m, Reaches ssh target (stages plan) remotes passed fate m := by
  unfold Program.Course program at h
  rw [htarget] at h
  exact reaches_programFrom ssh target h

theorem course_program_of_no_target (htarget : ssh.targets.lookup plan.server = none)
    (h : (ssh.program remotes plan).Course passed fate) :
    passed = [] ∧
      fate = .ended (.error ⟨0, 1, s!"no ssh target configured for server {plan.server}"⟩) := by
  unfold Program.Course program at h
  rw [htarget] at h
  exact Course.of_nil h

end Plan
end Ssh

/-- At any moment of any call, a remote shell has started a beginning of the plan, each command after
the success of the one before it, and every command that it has seen succeed; and both executors have
reported the rule commands that they have seen succeed, count them in their failures and succeed only
after all commands. A dry run fails only by its cancellation, a remote shell also by a command. -/
theorem applies_in_order {plan : Plan} (hsize : plan.commands.length < UInt32.size)
    (passed : List Act) (fate : Fate) :
    (∀ delay, (DryRun.program delay plan).Course passed fate →
      Tallied plan (DryRun.saw plan passed) passed fate ∧
      ∀ f, fate.result? = some (.error f) → fate = .cutOff f) ∧
    ∀ (ssh : Ssh) (remotes : List Remote), (ssh.program remotes plan).Course passed fate →
      (∀ target, ssh.targets.lookup plan.server = some target →
        ssh.InOrder target plan (ssh.saw target remotes plan passed) passed ∧
        Tallied plan (ssh.saw target remotes plan passed) passed fate ∧
        ssh.Refused target remotes plan (ssh.saw target remotes plan passed) fate) ∧
      (ssh.targets.lookup plan.server = none → passed = [] ∧
        fate = .ended (.error ⟨0, 1, s!"no ssh target configured for server {plan.server}"⟩)) := by
  refine ⟨fun delay h => ⟨DryRun.tallied hsize h, fun f hf => DryRun.eq_cutOff_of_error h hf⟩,
    fun ssh remotes h => ⟨fun target htarget => ?_,
      fun htarget => Ssh.course_program_of_no_target htarget h⟩⟩
  obtain ⟨m, hm⟩ := Ssh.reaches_program htarget h
  exact ⟨hm.inOrder, hm.tallied hsize, hm.refused⟩

/-- The second of three rules is refused: the flush and one rule are seen to succeed, the rule is
reported and counted, and the third is not started. -/
theorem applies_in_order_refused :
    let plan : Plan :=
      { task := "1", server := "web", preamble := ["iptables -F"], commands := ["a", "b", "c"] }
    let shell : Ssh := { targets := [("web", "root@web")] }
    let remotes : List Remote := [{}, {}, { ending := .exit 1 [] }]
    let passed := ((shell.program remotes plan).solo {}).passed
    let saw := shell.saw "root@web" remotes plan passed
    plan.commands.length < UInt32.size ∧
    callsOf passed = ["iptables -F", "a", "b"].map (shell.wordsFor "root@web") ∧
    (List.range 4).map saw = [true, true, false, false] ∧
    ∃ fate, fate.result? = some (.error ⟨1, 1, "'b' exited with 1: "⟩) ∧
      shell.InOrder "root@web" plan saw passed ∧ Tallied plan saw passed fate ∧
      shell.Refused "root@web" remotes plan saw fate := by
  intro plan shell remotes passed saw
  have hsize : plan.commands.length < UInt32.size := by decide
  have hcalls : callsOf passed = ["iptables -F", "a", "b"].map (shell.wordsFor "root@web") := by
    decide +kernel
  have hsaw : (List.range 4).map saw = [true, true, false, false] := by decide +kernel
  have herror : ((shell.program remotes plan).solo {}).result =
      some (.error ⟨1, 1, "'b' exited with 1: "⟩) := by
    decide +kernel
  obtain ⟨fate, hcourse, hresult⟩ := (shell.program remotes plan).course_solo {}
  have happlies := ((applies_in_order hsize passed fate).2 shell remotes hcourse).1 "root@web" rfl
  exact ⟨hsize, hcalls, hsaw, fate, hresult.trans herror, happlies⟩

end FirewallRollout.Executor
