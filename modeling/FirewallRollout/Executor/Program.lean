/-!
# Programs of executors

What an executor does in one rebuild, as a list of acts and an ending. An act may have to wait, and
may stop the program when the rebuild is cancelled. Times are in milliseconds.
-/
namespace FirewallRollout.Executor

/-- Why an executor gave up: how many rule commands were applied, and how many failed. -/
structure Failure where
  processed : UInt32
  failed : UInt32
  message : String
  deriving DecidableEq

/-- The failure of an execution that was cancelled after some rule commands. -/
def Failure.cancelled (processed : UInt32) : Failure :=
  { processed, failed := 0, message := "execution cancelled" }

/-- How an executor's call ends. -/
abbrev Result := Except Failure Unit

instance : DecidableEq Result
  | .ok (), .ok () => isTrue rfl
  | .ok (), .error _ | .error _, .ok () => isFalse nofun
  | .error f, .error g => decidable_of_iff (f = g) (by rw [Except.error.injEq])

/-- What an executor is to do: the flushes, and then one command for each rule. -/
structure Plan where
  task : String
  server : String
  preamble : List String
  commands : List String
  deriving DecidableEq

inductive Act where
  /-- Start a command with its words. -/
  | call (words : List String)
  /-- Report how many rule commands are applied. -/
  | report (n : UInt32)
  /-- Stop when the rebuild is cancelled. -/
  | check (onCancel : Failure)
  /-- Wait for some time; with a failure given, a cancellation stops the program meanwhile. -/
  | pause (ms : Nat) (onCancel : Option Failure)
  /-- Wait until the rebuild is cancelled. -/
  | awaitCancel
  /-- Wait for ever. -/
  | hang
  deriving DecidableEq

/-- What becomes of an act at some moment. -/
inductive Turn where
  | pass
  | stop (f : Failure)
  | wait

/-- The turn of an act that began some time ago. -/
def Act.turn (cancelled : Bool) (elapsed : Nat) : Act → Turn
  | call _ | report _ => .pass
  | check f => if cancelled then .stop f else .pass
  | pause ms onCancel =>
    match cancelled, onCancel with
    | true, some f => .stop f
    | _, _ => if ms ≤ elapsed then .pass else .wait
  | awaitCancel => if cancelled then .pass else .wait
  | hang => .wait

structure Program where
  acts : List Act
  ending : Result

/-- A program under way: the acts to come, and when the first of them began. -/
structure Activity where
  acts : List Act
  ending : Result
  since : Nat

namespace Activity

def start (p : Program) (now : Nat) : Activity := { acts := p.acts, ending := p.ending, since := now }

/-- Go through acts until one has to wait: those that passed, and what is left or the result. -/
def through (now : Nat) (cancelled : Bool) (ending : Result) :
    List Act → Nat → List Act × (Activity ⊕ Result)
  | [], _ => ([], .inr ending)
  | act :: rest, since =>
    match act.turn cancelled (now - since) with
    | .pass =>
      let (passed, next) := through now cancelled ending rest now
      (act :: passed, next)
    | .stop f => ([], .inr (.error f))
    | .wait => ([], .inl { acts := act :: rest, ending, since })

/-- Go on at some moment. -/
def poll (a : Activity) (now : Nat) (cancelled : Bool) : List Act × (Activity ⊕ Result) :=
  through now cancelled a.ending a.acts a.since

/-- When the activity goes on by itself. -/
def wake? (a : Activity) : Option Nat :=
  match a.acts with
  | .pause ms _ :: _ => some (a.since + ms)
  | _ => none

end Activity

/-- The reports among some acts. -/
def reportsOf (acts : List Act) : List UInt32 :=
  acts.filterMap fun
    | .report n => some n
    | _ => none

/-- The commands started among some acts. -/
def callsOf (acts : List Act) : List (List String) :=
  acts.filterMap fun
    | .call words => some words
    | _ => none

/-- When a program that runs by itself is cancelled: before it starts, when it reports a number, or
after some time. -/
structure Signal where
  atStart : Bool := false
  onReport : Option UInt32 := none
  after : Option Nat := none

/-- What a program did by itself: the acts that passed, its result unless it waits for ever, and
whether it was cancelled by then. -/
structure Account where
  passed : List Act
  result : Option Result
  cancelled : Bool

/-- An account with an act that passed before. -/
def Account.after (act : Act) (a : Account) : Account := { a with passed := act :: a.passed }

/-- A program's acts by themselves from some moment on. A cancellation by time is seen only by an act
that waits for it. -/
def soloFrom (signal : Signal) (ending : Result) : Bool → Nat → List Act → Account
  | cancelled, _, [] => ⟨[], some ending, cancelled⟩
  | cancelled, now, act :: rest =>
    match act.turn cancelled 0 with
    | .stop f => ⟨[], some (.error f), cancelled⟩
    | .pass =>
      let heard := match act with
        | .report n => signal.onReport == some n
        | _ => false
      (soloFrom signal ending (cancelled || heard) now rest).after act
    | .wait =>
      match act with
      | .pause ms onCancel =>
        let meanwhile := cancelled || signal.after.any (· < now + ms)
        match meanwhile, onCancel with
        | true, some f => ⟨[], some (.error f), true⟩
        | _, _ => (soloFrom signal ending meanwhile (now + ms) rest).after act
      | .awaitCancel =>
        match signal.after with
        | some t => (soloFrom signal ending true (max now t) rest).after act
        | none => ⟨[], none, cancelled⟩
      | _ => ⟨[], none, cancelled⟩

/-- A program by itself. -/
def Program.solo (p : Program) (signal : Signal) : Account :=
  soloFrom signal p.ending signal.atStart 0 p.acts

end FirewallRollout.Executor
