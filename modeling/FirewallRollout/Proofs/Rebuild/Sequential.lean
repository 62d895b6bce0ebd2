import FirewallRollout.Proofs.Rebuild.Interleaving

/-!
# One live worker of a server

Unless rebuilds may be concurrent, a live worker has the lease of its server. This is a matter of the
registry, the leases and the workers alone, and these are in an interleaving what they are in a run of
whole steps. So it holds in interleavings too; and a worker in the middle of its step can be told from
its phase.
-/
namespace FirewallRollout.Rebuild

/-- Every live worker has the lease of its server. -/
structure State.Sequential (s : State) : Prop where
  coherent : s.Coherent
  sequential : s.settings.allowConcurrent = false
  leased : ∀ {id w}, s.Live id w → s.leases.lookup w.task.server = some id

namespace State
variable {s s' : State}

theorem sequential_initial {settings : Settings} (hsequential : settings.allowConcurrent = false)
    (inventory : Inventory) (registry : Registry) :
    (initial settings inventory registry).Sequential where
  coherent := coherent_initial settings inventory registry
  sequential := hsequential
  leased h := by simp [Live, initial, worker?] at h

/-- What is remembered of a server has no part in it, nor has the time. -/
theorem Sequential.congr (hs : s.Sequential) (hsettings : s'.settings = s.settings)
    (hregistry : s'.registry = s.registry) (hleases : s'.leases = s.leases)
    (hworkers : s'.workers = s.workers) (hcalls : s'.calls = s.calls) : s'.Sequential where
  coherent := hs.coherent.congr hworkers (congrArg Registry.entries hregistry) hcalls
  sequential := by rw [hsettings, hs.sequential]
  leased {id w} h := by
    have hlive : s.Live id w := by
      rw [Live, worker?, hworkers, hasEnded_congr hregistry] at h
      exact h
    rw [hleases, hs.leased hlive]

end State

namespace Effect
open State
variable {s s' : State}

/-- A task that goes on keeps its lease. -/
theorem lease_kept (h : Effect s s') (hs : s.Coherent)
    (hsequential : s.settings.allowConcurrent = false) {server id : String}
    (hactive : s.hasEnded id = false) (hlease : s.leases.lookup server = some id) :
    s'.leases.lookup server = some id := by
  cases h with
  | triggered accepting free scripted counted created =>
    dsimp only
    rw [if_neg (by simp [hsequential]), Assoc.lookup_put, if_neg, hlease]
    rintro rfl
    simp [holder?, hsequential, hlease, hactive] at free
  | released found phase =>
    dsimp only
    split
    · next hheld =>
      rw [Assoc.lookup_erase, if_neg, hlease]
      rintro rfl
      rw [hlease, beq_iff_eq, Option.some.injEq] at hheld
      rw [hheld, hs.hasEnded_of_releasing found phase] at hactive
      cases hactive
    · exact hlease
  | _ => exact hlease

/-- A new task has the lease of its server. -/
theorem lease_new (h : Effect s s') (hsequential : s.settings.allowConcurrent = false)
    {id : String} (hnew : s.registry.find? id = none) {e : Registry.Entry}
    (he : s'.registry.find? id = some e) : s'.leases.lookup e.task.server = some id := by
  -- only a trigger brings a task
  have hold : s.registry.find? id ≠ none → s'.leases.lookup e.task.server = some id :=
    fun h => absurd hnew h
  have hfound : s'.registry.find? id ≠ none := by simp [he]
  cases h with
  | triggered accepting free scripted counted created =>
    dsimp only at he ⊢
    rw [Registry.find?_create created] at he
    split at he
    · next hid =>
      obtain rfl := Option.some.inj he
      rw [if_neg (by simp [hsequential]), Assoc.lookup_put]
      exact (if_pos rfl).trans (congrArg some hid.symm)
    · rw [hnew] at he
      cases he
  | cancelled found active => exact hold (Registry.find?_of_amend found hfound rfl)
  | skipped found phase entry pending unchanged =>
    exact hold (Registry.find?_of_amend entry hfound rfl)
  | called deadline found phase entry pending unchanged =>
    exact hold (Registry.find?_of_amend entry hfound rfl)
  | reported n found phase entry =>
    exact hold (Registry.find?_of_amend entry hfound (Task.progress_sameRebuild _ n).1)
  | settled now found phase entry recorded =>
    exact hold (Registry.find?_of_amend entry hfound (settleTask_ok recorded).2.2.2.1)
  | _ => exact hold hfound

theorem sequential (h : Effect s s') (hs : s.Sequential) : s'.Sequential where
  coherent := h.coherent hs.coherent
  sequential := by rw [h.settings_eq, hs.sequential]
  leased {id w'} hlive := by
    rcases h.live_cases hs.coherent hlive with ⟨w, hw, hcontinues⟩ | hnew
    · rw [hcontinues.task]
      exact h.lease_kept hs.coherent hs.sequential hw.2 (hs.leased hw)
    · obtain ⟨e, he, hsame, -⟩ := ((h.coherent hs.coherent).fits hlive.1).registered
      rw [hlive.id_eq] at he
      rw [← hsame.2.1]
      exact h.lease_new hs.sequential hnew.free he

/-- Where no call begins, one may return, and the step is the same whatever the calls before it. -/
theorem recalled (h : Effect s s') (hcalls : s'.calls.length = s.calls.length) (calls : List Call) :
    (s'.calls = s.calls ∧ Effect { s with calls } { s' with calls }) ∨
      ∃ (w : Worker) (outcome : Outcome) (result : Executor.Result),
        s.worker? w.task.id = some w ∧ isCalling w.phase = true ∧
        s'.worker? w.task.id = some { w with phase := .settling outcome } ∧
        s'.calls = (s.withResult w.task.id result).calls ∧
        Effect { s with calls }
          { s' with calls := (withResult { s with calls } w.task.id result).calls } := by
  cases h with
  | nothing => exact .inl ⟨rfl, .nothing⟩
  | refused => exact .inl ⟨rfl, .refused⟩
  | triggered accepting free scripted counted created =>
    exact .inl ⟨rfl, .triggered accepting free scripted counted created⟩
  | cancelled found active => exact .inl ⟨rfl, .cancelled found active⟩
  | shutDown => exact .inl ⟨rfl, .shutDown⟩
  | edited inventory => exact .inl ⟨rfl, .edited inventory⟩
  | startRefused found phase late => exact .inl ⟨rfl, .startRefused found phase late⟩
  | skipped found phase entry pending unchanged =>
    exact .inl ⟨rfl, .skipped found phase entry pending unchanged⟩
  | called deadline found phase entry pending unchanged => simp at hcalls
  | reported n found phase entry => exact .inl ⟨rfl, .reported n found phase entry⟩
  | revoked found phase => exact .inl ⟨rfl, .revoked found phase⟩
  | @finished w deadline result found phase =>
    exact .inr ⟨w, _, result, found, isCalling_iff.mpr (.inl ⟨_, phase⟩),
      worker?_withWorker_self (s := s.withResult w.task.id result) found fun _ => rfl, rfl,
      .finished result found phase⟩
  | @finishedLate w outcome limit result found phase =>
    exact .inr ⟨w, outcome, result, found, isCalling_iff.mpr (.inr ⟨_, _, phase⟩),
      worker?_withWorker_self (s := s.withResult w.task.id result) found fun _ => rfl, rfl,
      .finishedLate result found phase⟩
  | wound found phase due => exact .inl ⟨rfl, .wound found phase due⟩
  | abandoned found phase due => exact .inl ⟨rfl, .abandoned found phase due⟩
  | settleRefused found phase late => exact .inl ⟨rfl, .settleRefused found phase late⟩
  | settled now found phase entry recorded =>
    exact .inl ⟨rfl, .settled now found phase entry recorded⟩
  | released found phase => exact .inl ⟨rfl, .released found phase⟩
  | passed ms allowed => exact .inl ⟨rfl, .passed ms allowed⟩

end Effect

/-- What a worker in the middle of its step has still to do. -/
inductive Worker.Owes (w : Worker) : List Part → Prop
  | start (deadline : Nat) (phase : w.phase = .executing deadline) :
    Owes w [.forget w.task.server, .call w.plan]
  | call (deadline : Nat) (phase : w.phase = .executing deadline) : Owes w [.call w.plan]
  | remember (phase : w.phase = .releasing) :
    Owes w [.remember w.task.server w.script.fingerprint]

theorem Worker.Owes.cancelled {w : Worker} {parts : List Part} (h : w.Owes parts)
    (cancelled : Bool) : Worker.Owes { w with cancelled } parts := by
  cases h with
  | start deadline phase => exact .start deadline phase
  | call deadline phase => exact .call deadline phase
  | remember phase => exact .remember phase

theorem Worker.Owes.tail {w : Worker} {part : Part} {parts : List Part}
    (h : w.Owes (part :: parts)) (hparts : parts ≠ []) : w.Owes parts := by
  cases h with
  | start deadline phase => exact .call deadline phase
  | call deadline phase => exact absurd rfl hparts
  | remember phase => exact absurd rfl hparts

theorem Worker.Owes.phase_ne_settling {w : Worker} {parts : List Part} (h : w.Owes parts)
    (outcome : Outcome) : w.phase ≠ .settling outcome := by
  cases h with
  | start deadline phase => simp [phase]
  | call deadline phase => simp [phase]
  | remember phase => simp [phase]

/-- The call that a part begins. -/
def Part.call? : Part → Option Call
  | .call plan => some { plan }
  | .forget _ | .remember .. => none

namespace Interleaving
open State

/-- The calls that the worker of a task is about to begin. -/
def begins (x : Interleaving) (id : String) : List Call := (x.ahead id).filterMap Part.call?

/-- Some calls are those that were begun and those that are about to begin. -/
def Counts (x : Interleaving) (calls : List Call) : Prop :=
  ∀ id, callsOf { x.state with calls } id = x.state.callsOf id ++ x.begins id

structure Sequential (x : Interleaving) : Prop where
  /-- Were they begun already, the state would be one of whole steps. -/
  whole : ∃ calls, State.Sequential { x.state with calls } ∧ x.Counts calls
  owes : ∀ {id}, x.ahead id ≠ [] → ∃ w, x.state.worker? id = some w ∧ w.Owes (x.ahead id)

variable {x y : Interleaving} {m : Move}

theorem begins_eq_nil {id : String} (h : x.ahead id = []) : x.begins id = [] := by
  rw [begins, h, List.filterMap_nil]

theorem begins_congr {id : String} (h : y.ahead id = x.ahead id) : y.begins id = x.begins id := by
  rw [begins, h, begins]

theorem workers_carryOut (s : State) (part : Part) : (s.carryOut part).workers = s.workers := by
  cases part <;> rfl

/-- A worker in the middle of its step is in none where its phase changes. -/
theorem ahead_eq_nil_of_settling {id : String} {w : Worker} {outcome : Outcome}
    (hbusy : x.ahead id ≠ [] → ∃ cancelled, y.state.worker? id = some { w with cancelled })
    (hw : isCalling w.phase = true)
    (hw' : y.state.worker? id = some { w with phase := .settling outcome }) : x.ahead id = [] := by
  by_contra hne
  obtain ⟨cancelled, hsame⟩ := hbusy hne
  have hphase : w.phase = .settling outcome :=
    congrArg Worker.phase (Option.some.inj (hsame.symm.trans hw'))
  simp [hphase, isCalling] at hw

/-- What is about to begin changes with the parts of one worker only. -/
theorem begins_of_ahead {own : String} {parts : List Part}
    (ahead : ∀ id, y.ahead id = if id = own then parts else x.ahead id) (id : String) :
    y.begins id = if id = own then parts.filterMap Part.call? else x.begins id := by
  rw [begins, ahead, begins]
  split <;> rfl

section Counted
variable {calls : List Call} (hcounts : x.Counts calls)
include hcounts

/-- A call that returns is counted as before. -/
theorem Counts.returned {w : Worker} {result : Executor.Result} (hfree : x.ahead w.task.id = [])
    (hcalls : y.state.calls = (x.state.withResult w.task.id result).calls)
    (ahead : ∀ id, y.ahead id = x.ahead id) :
    y.Counts (withResult { x.state with calls } w.task.id result).calls := by
  intro id
  refine (callsOf_withResult { x.state with calls } w.task.id result id).trans ?_
  rw [callsOf_congr hcalls, callsOf_withResult, begins_congr (ahead id)]
  split
  · next hid =>
    have hown := hcounts id
    rw [hid, begins_eq_nil hfree, List.append_nil] at hown
    rw [hid, begins_eq_nil hfree, List.append_nil, hown]
  · exact hcounts id

/-- A call that is about to begin is counted. -/
theorem Counts.entered {w : Worker} (hcalls : y.state.calls = x.state.calls)
    (free : x.ahead w.task.id = [])
    (ahead : ∀ id, y.ahead id =
      if id = w.task.id then [.forget w.task.server, .call w.plan] else x.ahead id) :
    y.Counts (calls ++ [{ plan := w.plan }]) := by
  intro id
  refine (callsOf_append (s := { x.state with calls }) rfl id).trans ?_
  rw [hcounts, callsOf_congr hcalls, begins_of_ahead ahead]
  by_cases hid : id = w.task.id
  · rw [if_pos hid, if_pos (by exact hid), hid, begins_eq_nil free, List.append_nil]
    rfl
  · rw [if_neg hid, if_neg (by exact hid)]

/-- Where no call is ahead, none is counted. -/
theorem Counts.concluded {own : String} {parts : List Part}
    (hcalls : y.state.calls = x.state.calls) (free : x.ahead own = [])
    (hnone : parts.filterMap Part.call? = [])
    (ahead : ∀ id, y.ahead id = if id = own then parts else x.ahead id) : y.Counts calls := by
  intro id
  refine (hcounts id).trans ?_
  rw [callsOf_congr hcalls, begins_of_ahead ahead]
  by_cases hid : id = own
  · rw [if_pos hid, hid, begins_eq_nil free, hnone]
  · rw [if_neg hid]

/-- A part that is done leaves the calls that are counted as they are. -/
theorem Counts.proceeded {w : Worker} {part : Part} {parts : List Part}
    (howes : w.Owes (x.ahead w.task.id)) (next : x.ahead w.task.id = part :: parts)
    (state : y.state = x.state.carryOut part)
    (ahead : ∀ id, y.ahead id = if id = w.task.id then parts else x.ahead id) :
    y.Counts calls := by
  intro id
  refine (hcounts id).trans ?_
  rw [next] at howes
  have hnext : x.begins w.task.id = (part :: parts).filterMap Part.call? := by rw [begins, next]
  rw [begins_of_ahead ahead]
  cases howes with
  | start deadline phase | remember phase =>
    have hcalls : y.state.calls = x.state.calls := by rw [state]; rfl
    rw [callsOf_congr hcalls]
    by_cases hid : id = w.task.id
    · rw [if_pos hid, hid, hnext]
      rfl
    · rw [if_neg hid]
  | call deadline phase =>
    have hcalls : y.state.calls = x.state.calls ++ [{ plan := w.plan }] := by rw [state]; rfl
    rw [callsOf_append hcalls]
    by_cases hid : id = w.task.id
    · rw [if_pos hid, if_pos (by exact hid), hid, hnext]
      simp [Part.call?]
    · rw [if_neg hid, if_neg (by exact hid)]

end Counted

/-- An advance is a step of a state in which the calls ahead have begun, but for what is remembered of
servers and for the time. -/
theorem Advance.effect (h : Advance x m y) (hx : x.Sequential) :
    ∃ calls calls' fingerprints clock, State.Sequential { x.state with calls } ∧ x.Counts calls ∧
      Effect { x.state with calls } { y.state with calls := calls', fingerprints, clock } ∧
      y.Counts calls' := by
  obtain ⟨calls, hcoherent, hcounts⟩ := hx.whole
  cases h with
  | whole effect length fingerprints ahead busy =>
    rcases effect.recalled length calls with
      ⟨hcalls, heffect⟩ | ⟨w, outcome, result, found, hcalling, found', hcalls, heffect⟩
    · refine ⟨calls, calls, _, _, hcoherent, hcounts, heffect, fun id => ?_⟩
      rw [callsOf_congr hcalls, begins_congr (ahead id)]
      exact hcounts id
    · have hfree := ahead_eq_nil_of_settling (busy · found) hcalling found'
      exact ⟨calls, _, _, _, hcoherent, hcounts, heffect, hcounts.returned hfree hcalls ahead⟩
  | @entered w e deadline found free phase entry pending unchanged timed state ahead =>
    have heffect := Effect.called (s := { x.state with calls }) deadline found phase entry pending
      unchanged timed
    have hcalls : y.state.calls = x.state.calls := by rw [state]; rfl
    exact ⟨calls, _, _, _, hcoherent, hcounts, by rw [state]; exact heffect,
      hcounts.entered hcalls free ahead⟩
  | @concluded w e t now found free phase entry recorded state ahead =>
    have heffect := Effect.settled (s := { x.state with calls }) now found phase entry recorded
    have hcalls : y.state.calls = x.state.calls := by rw [state]; rfl
    exact ⟨calls, calls, _, _, hcoherent, hcounts, by rw [state]; exact heffect,
      hcounts.concluded hcalls free rfl ahead⟩
  | @proceeded id part parts own next state ahead =>
    have hbusy : x.ahead id ≠ [] := by simp [next]
    obtain ⟨w, found, howes⟩ := hx.owes hbusy
    obtain rfl := id_of_worker? found
    refine ⟨calls, calls, x.state.fingerprints, x.state.clock, hcoherent, hcounts, ?_,
      hcounts.proceeded howes next state ahead⟩
    rw [state]
    cases part <;> exact .nothing
  | waited ms moved =>
    refine ⟨calls, calls, x.state.fingerprints, x.state.clock, hcoherent, hcounts, ?_, ?_⟩
    · rw [moved]
      exact .nothing
    · rw [moved]
      exact hcounts

/-- A worker that has begun a step is in the middle of it, and nothing has changed for the others. -/
theorem exists_owes_of_begun (hx : x.Sequential) {w : Worker} {registry : Registry}
    {change : Worker → Worker} {parts : List Part} (found : x.state.worker? w.task.id = some w)
    (state : y.state = withWorker { x.state with registry } w.task.id change)
    (hkeep : ∀ v, (change v).task = v.task)
    (ahead : ∀ id, y.ahead id = if id = w.task.id then parts else x.ahead id)
    (howes : (change w).Owes parts) {id : String} (hahead : y.ahead id ≠ []) :
    ∃ w, y.state.worker? id = some w ∧ w.Owes (y.ahead id) := by
  rw [ahead] at hahead ⊢
  rw [state, worker?_withWorker _ _ _ hkeep]
  by_cases hid : id = w.task.id
  · rw [if_pos hid, if_pos hid]
    exact ⟨change w, congrArg (Option.map change) found, howes⟩
  · rw [if_neg hid] at hahead
    rw [if_neg hid, if_neg hid]
    exact hx.owes hahead

theorem Advance.owes (h : Advance x m y) (hx : x.Sequential) {id : String}
    (hahead : y.ahead id ≠ []) : ∃ w, y.state.worker? id = some w ∧ w.Owes (y.ahead id) := by
  cases h with
  | whole effect calls fingerprints ahead busy =>
    rw [ahead] at hahead ⊢
    obtain ⟨w, hw, howes⟩ := hx.owes hahead
    obtain ⟨cancelled, hw'⟩ := busy hahead hw
    exact ⟨_, hw', howes.cancelled cancelled⟩
  | entered deadline found free phase entry pending unchanged timed state ahead =>
    exact exists_owes_of_begun hx found state (fun _ => rfl) ahead (.start deadline rfl) hahead
  | concluded now found free phase entry recorded state ahead =>
    exact exists_owes_of_begun hx found state (fun _ => rfl) ahead (.remember rfl) hahead
  | @proceeded id' part parts own next state ahead =>
    have hworkers : y.state.workers = x.state.workers := by rw [state, workers_carryOut]
    rw [ahead] at hahead ⊢
    rw [worker?, hworkers]
    by_cases hid : id = id'
    · rw [if_pos hid] at hahead ⊢
      have hbusy : x.ahead id' ≠ [] := by simp [next]
      obtain ⟨w, hw, howes⟩ := hx.owes hbusy
      rw [next] at howes
      exact ⟨w, by rw [hid]; exact hw, howes.tail hahead⟩
    · rw [if_neg hid] at hahead ⊢
      exact hx.owes hahead
  | waited ms moved =>
    rw [moved] at hahead ⊢
    exact hx.owes hahead

theorem Advance.sequential (h : Advance x m y) (hx : x.Sequential) : y.Sequential := by
  obtain ⟨calls, calls', fingerprints, clock, hcoherent, -, heffect, hcounts⟩ := h.effect hx
  exact ⟨⟨calls', (heffect.sequential hcoherent).congr rfl rfl rfl rfl rfl, hcounts⟩, h.owes hx⟩

theorem Sequential.move (hx : x.Sequential) (m : Move) : (x.move m).Sequential := by
  rcases x.move_advance m with hsame | h
  · rw [hsame]
    exact hx
  · exact h.sequential hx

theorem Sequential.run (hx : x.Sequential) (moves : List Move) : (x.run moves).Sequential := by
  induction moves generalizing x with
  | nil => exact hx
  | cons m moves ih => exact ih (hx.move m)

/-- Where no worker is in the middle of its step. -/
theorem sequential_of_state {s : State} (hs : s.Sequential) :
    Sequential { state := s } where
  whole := ⟨s.calls, hs, fun _ => (List.append_nil _).symm⟩
  owes h := absurd rfl h

end Interleaving
end FirewallRollout.Rebuild
