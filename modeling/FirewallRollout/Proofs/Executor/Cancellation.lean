import FirewallRollout.Proofs.Executor.Application

/-!
# What a cancelled execution tells

An execution that is cut off after its flushes tells that it was cancelled and how many rule commands
it has applied, at whatever command and moment this happens. A remote shell that is cut off in its
flushes counts the flush as a command that failed.
-/
namespace FirewallRollout.Executor

variable {plan : Plan} {passed : List Act} {f : Failure}

/-- The waits of a dry run are cut off with what it has applied. -/
theorem DryRun.eq_cancelled_of_cutOff {delay : Nat}
    (h : (program delay plan).Course passed (.cutOff f)) :
    f = .cancelled (.ofNat (plan.applied (saw plan passed))) := by
  obtain ⟨m, hhalt, hwaited, -⟩ := course_program h
  rw [applied_saw hhalt.le hwaited]
  cases hhalt with
  | before room halts =>
    obtain hwaits | hcut := halts
    · cases hwaits
    · cases hcut
      rw [Nat.zero_add]

namespace Ssh

variable {ssh : Ssh} {target : String} {remotes : List Remote} {m : Nat}

/-- A cancellation cuts a command off, or is found behind its failure. -/
theorem Reaches.eq_onCancel (h : Reaches ssh target (stages plan) remotes passed (.cutOff f) m) :
    ∃ stage, (stages plan)[m]? = some stage ∧ f = stage.onCancel := by
  obtain ⟨launched, ends, hhalt, -⟩ := h.halts
  cases hhalt with
  | pending next halts =>
    obtain hwaits | hcut := halts
    · cases hwaits
    · exact ⟨_, next, Fate.cutOff.inj hcut⟩
  | failed next fault halts =>
    obtain hended | ⟨-, hcut⟩ := halts
    · cases hended
    · exact ⟨_, next, Fate.cutOff.inj hcut⟩

theorem cutOff_cases (htarget : ssh.targets.lookup plan.server = some target)
    (h : (ssh.program remotes plan).Course passed (.cutOff f)) :
    (∀ i < plan.preamble.length, ssh.saw target remotes plan passed i = true) ∧
        f = .cancelled (.ofNat (plan.applied (ssh.saw target remotes plan passed))) ∨
      (∃ i < plan.preamble.length, ssh.saw target remotes plan passed i = false) ∧
        f = { Failure.cancelled 0 with failed := 1 } := by
  obtain ⟨m, hm⟩ := reaches_program htarget h
  obtain ⟨stage, hnext, rfl⟩ := hm.eq_onCancel
  have hroom : m < (stages plan).length := (List.getElem?_eq_some_iff.mp hnext).1
  have hlength := length_stages plan
  have happlied : plan.applied (ssh.saw target remotes plan passed) = m - plan.preamble.length :=
    applied_of_threshold (hlength ▸ hm.le) fun i hi => hm.saw_iff (hlength ▸ hi)
  rw [stages_getElem?] at hnext
  obtain ⟨command, -, rfl⟩ := Option.map_eq_some_iff.mp hnext
  split
  · next hflush =>
    -- the flush that was cut off has not been seen to succeed
    refine .inr ⟨⟨m, hflush, ?_⟩, rfl⟩
    exact Bool.eq_false_iff.mpr (mt (hm.saw_iff hroom).mp (Nat.lt_irrefl m))
  · next hrule =>
    refine .inl ⟨fun i hi => (hm.saw_iff (by omega)).mpr (by omega), ?_⟩
    rw [happlied]
    rfl

end Ssh

/-- A dry run that is cut off fails as cancelled, with the rules that it has applied. So does a remote
shell, once all flushes have succeeded; before that, it fails with one failed command. -/
theorem cutOff_reported (plan : Plan) (passed : List Act) (f : Failure) :
    (∀ delay, (DryRun.program delay plan).Course passed (.cutOff f) →
      f = .cancelled (.ofNat (plan.applied (DryRun.saw plan passed)))) ∧
    ∀ (ssh : Ssh) (remotes : List Remote) (target : String),
      ssh.targets.lookup plan.server = some target →
      (ssh.program remotes plan).Course passed (.cutOff f) →
      (∀ i < plan.preamble.length, ssh.saw target remotes plan passed i = true) ∧
          f = .cancelled (.ofNat (plan.applied (ssh.saw target remotes plan passed))) ∨
        (∃ i < plan.preamble.length, ssh.saw target remotes plan passed i = false) ∧
          f = ⟨0, 1, "execution cancelled"⟩ :=
  ⟨fun _ h => DryRun.eq_cancelled_of_cutOff h, fun _ _ _ htarget h => Ssh.cutOff_cases htarget h⟩

/-- A cancellation before the first of two flushes, none of which fails, counts as a failed command. -/
theorem cutOff_reported_flush :
    let plan : Plan :=
      { task := "T", server := "S1", preamble := ["iptables -F", "iptables -t nat -F"]
        commands := ["a", "b"] }
    let shell : Ssh := { targets := [("S1", "root@10.0.0.1"), ("S2", "root@h2")] }
    let account := (shell.program [] plan).solo { atStart := true }
    (∀ i < plan.sequence.length, shell.faultAt? "root@10.0.0.1" [] plan i = none) ∧
    account.result = some (.error ⟨0, 1, "execution cancelled"⟩) ∧
    ∃ f, (shell.program [] plan).Course account.passed (.cutOff f) ∧
      f ≠ .cancelled (.ofNat (plan.applied (shell.saw "root@10.0.0.1" [] plan account.passed))) ∧
      f = ⟨0, 1, "execution cancelled"⟩ := by
  intro plan shell account
  have hfaultless : ∀ i < plan.sequence.length, shell.faultAt? "root@10.0.0.1" [] plan i = none := by
    decide +kernel
  have herror : account.result = some (.error ⟨0, 1, "execution cancelled"⟩) := by decide +kernel
  have hstart : (shell.program [] plan).acts.take 2 =
      [.call (shell.wordsFor "root@10.0.0.1" "iptables -F"),
       .pause 0 (some ⟨0, 1, "execution cancelled"⟩)] := by
    decide +kernel
  have hpassed : account.passed = [.call (shell.wordsFor "root@10.0.0.1" "iptables -F")] := by
    decide +kernel
  have hcourse : (shell.program [] plan).Course account.passed
      (.cutOff ⟨0, 1, "execution cancelled"⟩) := by
    rw [hpassed, Program.Course, ← List.take_append_drop 2 (shell.program [] plan).acts, hstart]
    exact .cancelled (.passes .calls (.stops .interrupted))
  have hunseen : shell.saw "root@10.0.0.1" [] plan account.passed 0 = false := by decide +kernel
  obtain ⟨hall, -⟩ | ⟨-, hf⟩ := (cutOff_reported plan account.passed _).2 shell [] _ rfl hcourse
  · have := hall 0 (by decide)
    simp_all
  · exact ⟨hfaultless, herror, _, hcourse, by decide +kernel, hf⟩

end FirewallRollout.Executor
