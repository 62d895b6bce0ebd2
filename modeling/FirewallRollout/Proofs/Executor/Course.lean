import FirewallRollout.Executor.Program

/-!
# Courses of programs

All that a program may do when its cancellation comes at any moment, or never. A wait ends when it
will; where it ends at the moment at which a cancellation comes, either of the two may be noticed.
What a program does by itself, and what an activity does in its turns, are courses of it.
-/
namespace FirewallRollout.Executor

/-- What may become of an act while the cancellation has come or not. -/
inductive Act.May : Bool → Act → Turn → Prop
  | calls {cancelled : Bool} {words : List String} : May cancelled (.call words) .pass
  | reports {cancelled : Bool} {n : UInt32} : May cancelled (.report n) .pass
  | unchecked {f : Failure} : May false (.check f) .pass
  | checked {f : Failure} : May true (.check f) (.stop f)
  | waits {cancelled : Bool} {ms : Nat} {onCancel : Option Failure} :
      May cancelled (.pause ms onCancel) .wait
  | elapses {cancelled : Bool} {ms : Nat} {onCancel : Option Failure} :
      May cancelled (.pause ms onCancel) .pass
  | interrupted {ms : Nat} {f : Failure} : May true (.pause ms (some f)) (.stop f)
  | expects : May false .awaitCancel .wait
  | expected : May true .awaitCancel .pass
  | hangs {cancelled : Bool} : May cancelled .hang .wait

theorem Act.may_turn (act : Act) (cancelled : Bool) (elapsed : Nat) :
    act.May cancelled (act.turn cancelled elapsed) := by
  cases act with
  | call words => exact .calls
  | report n => exact .reports
  | check f =>
    cases cancelled with
    | false => exact .unchecked
    | true => exact .checked
  | pause ms onCancel =>
    dsimp only [turn]
    split
    · exact .interrupted
    · split
      · exact .elapses
      · exact .waits
  | awaitCancel =>
    cases cancelled with
    | false => exact .expects
    | true => exact .expected
  | hang => exact .hangs

/-- What has become of a program. -/
inductive Fate where
  /-- It waits. -/
  | underWay
  /-- It was stopped by its cancellation. -/
  | cutOff (f : Failure)
  /-- It went through all of its acts. -/
  | ended (result : Result)

/-- The result of a program, once it has one. -/
def Fate.result? : Fate → Option Result
  | underWay => none
  | cutOff f => some (.error f)
  | ended result => some result

/-- A program that has some acts before it may go through so many of them and come to a fate. Whether
it is cancelled is given for the beginning; what is cancelled stays so. -/
inductive Course (ending : Result) : Bool → List Act → List Act → Fate → Prop
  | ended {cancelled : Bool} : Course ending cancelled [] [] (.ended ending)
  | waits {cancelled : Bool} {act : Act} {rest : List Act} (may : act.May cancelled .wait) :
      Course ending cancelled (act :: rest) [] .underWay
  | stops {cancelled : Bool} {act : Act} {rest : List Act} {f : Failure}
      (may : act.May cancelled (.stop f)) : Course ending cancelled (act :: rest) [] (.cutOff f)
  | passes {cancelled : Bool} {act : Act} {rest passed : List Act} {fate : Fate}
      (may : act.May cancelled .pass) (later : Course ending cancelled rest passed fate) :
      Course ending cancelled (act :: rest) (act :: passed) fate
  | cancelled {acts passed : List Act} {fate : Fate} (later : Course ending true acts passed fate) :
      Course ending false acts passed fate

/-- The courses of a program, which may be cancelled from the beginning on or later or never. -/
def Program.Course (p : Program) (passed : List Act) (fate : Fate) : Prop :=
  Executor.Course p.ending false p.acts passed fate

section Course
variable {ending : Result} {cancelled : Bool} {acts passed : List Act} {fate : Fate}

/-- What is cancelled by some moment may have been cancelled only since. -/
theorem Course.since {later : Bool} (h : Course ending later acts passed fate)
    (stays : cancelled = true → later = true) : Course ending cancelled acts passed fate := by
  cases cancelled with
  | true =>
    obtain rfl := stays rfl
    exact h
  | false =>
    cases later with
    | false => exact h
    | true => exact .cancelled h

theorem Course.of_nil (h : Course ending cancelled [] passed fate) :
    passed = [] ∧ fate = .ended ending := by
  generalize hacts : ([] : List Act) = acts at h
  induction h with
  | ended => exact ⟨rfl, rfl⟩
  | cancelled later ih => exact ih hacts
  | waits | stops | passes => cases hacts

/-- A program stays at its first act, or goes on behind it. -/
theorem Course.cons_cases {act : Act} {rest : List Act}
    (h : Course ending cancelled (act :: rest) passed fate) :
    passed = [] ∧ (fate = .underWay ∧ (∃ c, act.May c .wait) ∨
        ∃ f, fate = .cutOff f ∧ ∃ c, act.May c (.stop f)) ∨
      ∃ c later, passed = act :: later ∧ act.May c .pass ∧ Course ending c rest later fate := by
  generalize hacts : act :: rest = acts at h
  induction h with
  | ended => cases hacts
  | waits may =>
    obtain ⟨rfl, rfl⟩ := List.cons.inj hacts
    exact .inl ⟨rfl, .inl ⟨rfl, _, may⟩⟩
  | stops may =>
    obtain ⟨rfl, rfl⟩ := List.cons.inj hacts
    exact .inl ⟨rfl, .inr ⟨_, rfl, _, may⟩⟩
  | passes may later =>
    obtain ⟨rfl, rfl⟩ := List.cons.inj hacts
    exact .inr ⟨_, _, rfl, may, later⟩
  | cancelled later ih => exact ih hacts

/-- An act that never holds a program up is passed. -/
theorem Course.of_passing {act : Act} {rest : List Act}
    (h : Course ending cancelled (act :: rest) passed fate)
    (passing : ∀ {c : Bool} {turn : Turn}, act.May c turn → turn = .pass) :
    ∃ c later, passed = act :: later ∧ Course ending c rest later fate := by
  obtain ⟨-, ⟨-, _, hwait⟩ | ⟨_, -, _, hstop⟩⟩ | ⟨c, later, hpassed, -, hlater⟩ := h.cons_cases
  · cases passing hwait
  · cases passing hstop
  · exact ⟨c, later, hpassed, hlater⟩

theorem Course.of_call {words : List String} {rest : List Act}
    (h : Course ending cancelled (.call words :: rest) passed fate) :
    ∃ c later, passed = .call words :: later ∧ Course ending c rest later fate :=
  h.of_passing fun may => by cases may; rfl

theorem Course.of_report {n : UInt32} {rest : List Act}
    (h : Course ending cancelled (.report n :: rest) passed fate) :
    ∃ c later, passed = .report n :: later ∧ Course ending c rest later fate :=
  h.of_passing fun may => by cases may; rfl

theorem Course.of_check {f : Failure} {rest : List Act}
    (h : Course ending cancelled (.check f :: rest) passed fate) :
    passed = [] ∧ fate = .cutOff f ∨
      ∃ c later, passed = .check f :: later ∧ Course ending c rest later fate := by
  obtain ⟨hpassed, ⟨-, _, hwait⟩ | ⟨g, hfate, _, hstop⟩⟩ | ⟨c, later, hpassed, -, hlater⟩ :=
    h.cons_cases
  · cases hwait
  · cases hstop
    exact .inl ⟨hpassed, hfate⟩
  · exact .inr ⟨c, later, hpassed, hlater⟩

theorem Course.of_pause {ms : Nat} {f : Failure} {rest : List Act}
    (h : Course ending cancelled (.pause ms (some f) :: rest) passed fate) :
    passed = [] ∧ (fate = .underWay ∨ fate = .cutOff f) ∨
      ∃ c later, passed = .pause ms (some f) :: later ∧ Course ending c rest later fate := by
  obtain ⟨hpassed, ⟨hfate, -⟩ | ⟨g, hfate, _, hstop⟩⟩ | ⟨c, later, hpassed, -, hlater⟩ :=
    h.cons_cases
  · exact .inl ⟨hpassed, .inl hfate⟩
  · cases hstop
    exact .inl ⟨hpassed, .inr hfate⟩
  · exact .inr ⟨c, later, hpassed, hlater⟩

theorem course_soloFrom (signal : Signal) (ending : Result) (cancelled : Bool) (now : Nat)
    (acts : List Act) :
    ∃ fate, Course ending cancelled acts (soloFrom signal ending cancelled now acts).passed fate ∧
      fate.result? = (soloFrom signal ending cancelled now acts).result := by
  induction acts generalizing cancelled now with
  | nil => exact ⟨_, .ended, rfl⟩
  | cons act rest ih =>
    have hmay := act.may_turn cancelled 0
    unfold soloFrom
    dsimp only
    split
    · next f hstop =>
      rw [hstop] at hmay
      exact ⟨_, .stops hmay, rfl⟩
    · next hpass =>
      rw [hpass] at hmay
      obtain ⟨fate, hcourse, hresult⟩ := ih (cancelled || _) now
      exact ⟨fate, .passes hmay (hcourse.since (Bool.or_eq_true_iff.mpr ∘ .inl)), hresult⟩
    · next hwait =>
      rw [hwait] at hmay
      split
      · next ms onCancel =>
        split
        · next f hmeanwhile =>
          exact ⟨.cutOff f, Course.since (.stops .interrupted) fun _ => rfl, rfl⟩
        · obtain ⟨fate, hcourse, hresult⟩ := ih (cancelled || _) (now + ms)
          exact ⟨fate, .passes .elapses (hcourse.since (Bool.or_eq_true_iff.mpr ∘ .inl)), hresult⟩
      · split
        · obtain ⟨fate, hcourse, hresult⟩ := ih true _
          exact ⟨fate, Course.since (.passes .expected hcourse) fun _ => rfl, hresult⟩
        · exact ⟨_, .waits hmay, rfl⟩
      · exact ⟨_, .waits hmay, rfl⟩

/-- What a program does by itself is one of its courses. -/
theorem Program.course_solo (p : Program) (signal : Signal) :
    ∃ fate, p.Course (p.solo signal).passed fate ∧ fate.result? = (p.solo signal).result := by
  obtain ⟨fate, hcourse, hresult⟩ := course_soloFrom signal p.ending signal.atStart 0 p.acts
  exact ⟨fate, hcourse.since (by simp), hresult⟩

end Course

namespace Activity

/-- Whatever an activity still does ends a course of its program that begins with some acts. -/
def Continues (a : Activity) (cancelled : Bool) (p : Program) (passed : List Act) : Prop :=
  a.ending = p.ending ∧ ∀ {later : List Act} {fate : Fate},
    Course p.ending cancelled a.acts later fate → p.Course (passed ++ later) fate

theorem continues_start (p : Program) (now : Nat) (cancelled : Bool) :
    (start p now).Continues cancelled p [] :=
  ⟨rfl, fun h => h.since (by simp)⟩

section Through
variable {now since : Nat} {cancelled : Bool} {ending : Result} {acts passed : List Act}

/-- Going through acts, an activity comes to its result, or to acts that it has to wait for. -/
theorem course_through {next : Activity ⊕ Result}
    (h : through now cancelled ending acts since = (passed, next)) :
    (∃ fate result, next = .inr result ∧ fate.result? = some result ∧
      Course ending cancelled acts passed fate) ∨
    ∃ a : Activity, next = .inl a ∧ a.ending = ending ∧ ∀ {later : List Act} {fate : Fate},
      Course ending cancelled a.acts later fate →
        Course ending cancelled acts (passed ++ later) fate := by
  induction acts generalizing since passed with
  | nil =>
    obtain ⟨rfl, rfl⟩ := Prod.mk.inj h
    exact .inl ⟨_, ending, rfl, rfl, .ended⟩
  | cons act rest ih =>
    have hmay := act.may_turn cancelled (now - since)
    rw [through] at h
    split at h
    · next hpass =>
      rw [hpass] at hmay
      obtain ⟨rfl, rfl⟩ := Prod.mk.inj h
      obtain ⟨fate, result, hnext, hresult, hcourse⟩ | ⟨a, hnext, hending, hcontinues⟩ := ih rfl
      · exact .inl ⟨fate, result, hnext, hresult, .passes hmay hcourse⟩
      · exact .inr ⟨a, hnext, hending, fun hlater => .passes hmay (hcontinues hlater)⟩
    · next f hstop =>
      rw [hstop] at hmay
      obtain ⟨rfl, rfl⟩ := Prod.mk.inj h
      exact .inl ⟨_, _, rfl, rfl, .stops hmay⟩
    · obtain ⟨rfl, rfl⟩ := Prod.mk.inj h
      exact .inr ⟨_, rfl, rfl, fun hlater => hlater⟩

end Through

/-- One more turn of an activity, which stays cancelled once it is. -/
theorem Continues.poll {a : Activity} {before cancelled : Bool} {p : Program}
    {passed more : List Act} {next : Activity ⊕ Result} (h : a.Continues before p passed)
    (stays : before = true → cancelled = true) {now : Nat}
    (hpoll : a.poll now cancelled = (more, next)) :
    (∃ fate result, next = .inr result ∧ fate.result? = some result ∧
      p.Course (passed ++ more) fate) ∨
    ∃ a' : Activity, next = .inl a' ∧ a'.Continues cancelled p (passed ++ more) := by
  obtain ⟨hending, hcontinues⟩ := h
  rw [Activity.poll, hending] at hpoll
  obtain ⟨fate, result, hnext, hresult, hcourse⟩ | ⟨a', hnext, hsame, hlater⟩ :=
    course_through hpoll
  · exact .inl ⟨fate, result, hnext, hresult, hcontinues (hcourse.since stays)⟩
  · refine .inr ⟨a', hnext, hsame, fun {later fate} hcourse => ?_⟩
    rw [List.append_assoc]
    exact hcontinues ((hlater hcourse).since stays)

/-- What a program has come to in some turns and what it passed in them, and whether it was cancelled
by the last of them. -/
inductive Turned (p : Program) : Bool → List Act → Activity ⊕ Result → Prop
  | start (now : Nat) : Turned p false [] (.inl (start p now))
  | poll {a : Activity} {before cancelled : Bool} {passed more : List Act}
      {next : Activity ⊕ Result} {now : Nat} (earlier : Turned p before passed (.inl a))
      (stays : before = true → cancelled = true) (turn : a.poll now cancelled = (more, next)) :
      Turned p cancelled (passed ++ more) next

/-- Whenever its turns come, a program that ends in one of them has followed one of its courses, and
one that is still under way can only continue one. -/
theorem Turned.course {p : Program} {cancelled : Bool} {passed : List Act}
    {next : Activity ⊕ Result} (h : Turned p cancelled passed next) :
    (∃ fate result, next = .inr result ∧ fate.result? = some result ∧ p.Course passed fate) ∨
    ∃ a : Activity, next = .inl a ∧ a.Continues cancelled p passed := by
  induction h with
  | start now => exact .inr ⟨_, rfl, continues_start p now false⟩
  | poll earlier stays turn ih =>
    obtain ⟨_, _, hended, -⟩ | ⟨_, hgoesOn, hcontinues⟩ := ih
    · cases hended
    · obtain rfl := Sum.inl.inj hgoesOn
      exact hcontinues.poll stays turn

end Activity
end FirewallRollout.Executor
