import FirewallRollout.Proofs.Rebuild.Sequential

/-!
# The calls behind remembered fingerprints

Unless rebuilds may be concurrent, the holder of a server's slot is the one that calls for it, and
nothing comes between its call and its outcome, as long as no worker acts late: with its call or with
what it remembers after another task has taken the slot over. Then a remembered fingerprint is that of
the commands of the latest call, which returned well, and a worker that skips its call relies on it.
-/
namespace FirewallRollout.Rebuild

namespace State

/-- The worker of a task that has the slot of a server, whether or not the task has ended. -/
def Holds (s : State) (server id : String) (w : Worker) : Prop :=
  s.worker? id = some w ∧ w.task.server = server ∧ s.leases.lookup server = some id

/-- The latest call for a server returned well, and its commands are those of a script with the
property `P` and some fingerprint. -/
def Backs (s : State) (P : Script → Prop) (server fingerprint : String) : Prop :=
  ∃ call script, s.lastCall? server = some call ∧ call.result = some (.ok ()) ∧
    call.plan.commands = script.commands ∧ P script ∧ script.fingerprint = fingerprint

/-- No call for a server has begun since that of a task. -/
def Latest (s : State) (server id : String) : Prop :=
  ∀ c ∈ s.callsOf id, s.lastCall? server = some c

variable {P : Script → Prop} {s s' : State} {server id : String}

theorem Backs.congr {f : String} (h : s.Backs P server f)
    (hlast : s'.lastCall? server = s.lastCall? server) : s'.Backs P server f := by
  rw [Backs, hlast]
  exact h

theorem Latest.congr (h : s.Latest server id) (hcalls : s'.callsOf id = s.callsOf id)
    (hlast : s'.lastCall? server = s.lastCall? server) : s'.Latest server id := by
  rw [Latest, hcalls, hlast]
  exact h

section Returned
variable {id' : String} {plan : Executor.Plan} {result : Executor.Result}
  (hcalls : s'.calls = (s.withResult id' result).calls)
include hcalls

/-- A call that returns is not one that has returned well. -/
theorem Backs.returned (hown : s.callsOf id' = [{ plan }]) {f : String} (h : s.Backs P server f) :
    s'.Backs P server f := by
  obtain ⟨call, script, hcall, hok, hbacks⟩ := h
  have hother : call.plan.task ≠ id' := by
    intro hid
    have hmem : call ∈ s.callsOf id' := mem_callsOf.mpr ⟨(mem_of_lastCall? hcall).1, hid⟩
    rw [hown, List.mem_singleton] at hmem
    simp [hmem] at hok
  refine ⟨call, script, ?_, hok, hbacks⟩
  rw [lastCall?_congr hcalls, lastCall?_withResult, hcall, Option.map_some,
    if_neg (by simpa using hother)]

theorem Latest.returned (h : s.Latest server id) : s'.Latest server id := by
  intro c hc
  rw [callsOf_congr hcalls, callsOf_withResult] at hc
  rw [lastCall?_congr hcalls, lastCall?_withResult]
  split at hc
  · next hid =>
    subst hid
    obtain ⟨d, hd, rfl⟩ := List.mem_map.mp hc
    rw [h d hd, Option.map_some, if_pos (by simpa using (mem_callsOf.mp hd).2)]
  · next hid =>
    have hother : c.plan.task ≠ id' := by
      rw [(mem_callsOf.mp hc).2]
      exact hid
    rw [h c hc, Option.map_some, if_neg (by simpa using hother)]

end Returned

end State

namespace Interleaving
open State
variable {x y : Interleaving} {m : Move} {P : Script → Prop} {server : String}

/-- A move by which a worker begins its call for a server or remembers what it has applied to it, when
the slot of the server is not its own any more. -/
def Late (x : Interleaving) (server : String) (m : Move) : Prop :=
  ∃ id part parts, m = .proceed id ∧ x.ahead id = part :: parts ∧ part.server = server ∧
    part ≠ .forget server ∧ x.state.leases.lookup server ≠ some id

/-- Some move of a run is late for a server. -/
def LateIn (x : Interleaving) (server : String) : List Move → Prop
  | [] => False
  | m :: moves => x.Late server m ∨ (x.move m).LateIn server moves

section Facts
variable (hx : x.Sequential) {id : String} {w : Worker}
include hx

theorem Sequential.scripted (hw : x.state.worker? id = some w) :
    Scripted w.task.server w.script := by
  obtain ⟨calls, hs, -⟩ := hx.whole
  exact (hs.coherent.fits hw).scripted

theorem Sequential.registered (hw : x.state.worker? id = some w) :
    x.state.registry.find? id ≠ none := by
  obtain ⟨calls, hs, -⟩ := hx.whole
  exact hs.coherent.registered_of_worker? hw

theorem Sequential.holds (hlive : x.state.Live id w) : x.state.Holds w.task.server id w := by
  obtain ⟨calls, hs, -⟩ := hx.whole
  exact ⟨hlive.1, rfl, hs.leased hlive⟩

/-- A task that is not registered has made no call and has none ahead. -/
theorem Sequential.callsOf_of_unregistered (hid : x.state.registry.find? id = none) :
    x.state.callsOf id = [] := by
  obtain ⟨calls, hs, hcounts⟩ := hx.whole
  have hnone : callsOf { x.state with calls } id = [] := hs.coherent.uncalled hid
  rw [hcounts] at hnone
  exact (List.append_eq_nil_iff.mp hnone).1

theorem Sequential.ahead_of_unregistered (hid : x.state.registry.find? id = none) :
    x.ahead id = [] := by
  by_contra hne
  obtain ⟨w, hw, -⟩ := hx.owes hne
  exact hx.registered hw hid

theorem Sequential.ahead_of_settling {outcome : Outcome} (hw : x.state.worker? id = some w)
    (hphase : w.phase = .settling outcome) : x.ahead id = [] := by
  by_contra hne
  obtain ⟨v, hv, howes⟩ := hx.owes hne
  obtain rfl := Option.some.inj (hw.symm.trans hv)
  exact howes.phase_ne_settling outcome hphase

/-- A worker in a call has made this call alone. -/
theorem Sequential.callsOf_calling (hw : x.state.worker? w.task.id = some w)
    (hphase : isCalling w.phase = true) :
    w.unchanged = false ∧
      x.state.callsOf w.task.id ++ x.begins w.task.id = [{ plan := w.plan }] := by
  obtain ⟨calls, hs, hcounts⟩ := hx.whole
  rw [← hcounts]
  exact hs.coherent.callsOf_calling hw hphase

/-- A worker whose commands count as applied has made its call, and it returned well, or it has made
none, since it skipped it. -/
theorem Sequential.callsOf_settling (hw : x.state.worker? id = some w)
    (hphase : w.phase = .settling .applied) :
    x.state.callsOf id =
      if w.unchanged then [] else [{ plan := w.plan, result := some (.ok ()) }] := by
  obtain ⟨calls, hs, hcounts⟩ := hx.whole
  have hcalls := hcounts id
  rw [begins_eq_nil (hx.ahead_of_settling hw hphase), List.append_nil] at hcalls
  rw [← hcalls]
  cases hunchanged : w.unchanged with
  | true => exact hs.coherent.callsOf_skipped hw hphase hunchanged
  | false => exact hs.coherent.callsOf_applied hw hphase hunchanged

end Facts

/-- What the slot, the fingerprint and the calls of a server have to do with each other. The scripts
of workers have the property `P`. -/
structure Applied (x : Interleaving) (P : Script → Prop) (server : String) : Prop where
  /-- A fingerprint is remembered for commands that were applied and not touched since. -/
  remembered : ∀ {f}, x.state.fingerprints.lookup server = some f → x.state.Backs P server f
  latest : ∀ {id w}, x.state.Holds server id w → x.state.Latest server id
  /-- The commands of a holder that skips its call are still applied. -/
  relied : ∀ {id w}, x.state.Holds server id w → w.unchanged = true →
    x.state.Backs P server w.script.fingerprint
  /-- Nothing is remembered between a holder's start and its call. -/
  forgotten : ∀ {id w plan}, x.state.Holds server id w → x.ahead id = [.call plan] →
    x.state.fingerprints.lookup server = none
  /-- What a holder is about to remember is still applied. -/
  credited : ∀ {id w f}, x.state.Holds server id w → x.ahead id = [.remember server f] →
    x.state.Backs P server f

theorem applied_initial (settings : Settings) (inventory : Inventory) (registry : Registry) :
    Applied { state := initial settings inventory registry } P server where
  remembered h := by cases h
  latest h := by simp [Holds, initial, worker?] at h
  relied h := by simp [Holds, initial, worker?] at h
  forgotten h := by simp [Holds, initial, worker?] at h
  credited h := by simp [Holds, initial, worker?] at h

/-- A holder had the slot before, or it is new. -/
theorem Advance.holds_cases (h : Advance x m y) (hx : x.Sequential) {id : String} {w' : Worker}
    (h' : y.state.Holds server id w') :
    (∃ w, x.state.Holds server id w ∧ w.SameJob w') ∨ x.state.Admits id w' := by
  obtain ⟨calls, calls', fingerprints, clock, hs, -, heffect, -⟩ := h.effect hx
  obtain ⟨hw', hserver, hlease'⟩ := h'
  rcases heffect.worker_cases hw' with ⟨w, hw, hcontinues⟩ | hnew
  · have hregistered := hs.coherent.registered_of_worker? hw
    rcases heffect.lease_origin hs.coherent hlease' with hlease | ⟨hfree, -⟩
    · exact .inl ⟨w, ⟨hw, by rw [← hcontinues.task, hserver], hlease⟩, hcontinues.toSameJob⟩
    · exact absurd hfree hregistered
  · exact .inr ⟨hnew.free, hnew.phase, hnew.scripted, hnew.unchanged⟩

/-- Moves that do no part of a step: they change nothing that is remembered, and a call may return at
most. -/
theorem Applied.frame (ha : x.Applied P server) (h : Advance x m y) (hx : x.Sequential)
    (hfingerprints : y.state.fingerprints = x.state.fingerprints)
    (hbacks : ∀ {f}, x.state.Backs P server f → y.state.Backs P server f)
    (hlatest : ∀ {id}, x.state.Latest server id → y.state.Latest server id)
    (hcall : ∀ {id plan}, y.ahead id = [.call plan] → x.ahead id = [.call plan])
    (hremember : ∀ {id w f}, y.state.Holds server id w → y.ahead id = [.remember server f] →
      x.ahead id = [.remember server f] ∨ x.state.Backs P server f) : y.Applied P server where
  remembered hf := hbacks (ha.remembered (by rwa [hfingerprints] at hf))
  latest {id w'} h' := by
    rcases h.holds_cases hx h' with ⟨w, hw, -⟩ | hnew
    · exact hlatest (ha.latest hw)
    · refine hlatest fun c hc => ?_
      rw [hx.callsOf_of_unregistered hnew.free] at hc
      cases hc
  relied {id w'} h' hunchanged := by
    rcases h.holds_cases hx h' with ⟨w, hw, hsame⟩ | hnew
    · rw [hsame.unchanged] at hunchanged
      rw [hsame.script]
      exact hbacks (ha.relied hw hunchanged)
    · have hknown := hnew.unchanged hunchanged
      rw [isUnchanged, beq_iff_eq, hnew.scripted.server_eq, h'.2.1] at hknown
      exact hbacks (ha.remembered hknown)
  forgotten {id w' plan} h' hahead := by
    have hbefore := hcall hahead
    rw [hfingerprints]
    rcases h.holds_cases hx h' with ⟨w, hw, -⟩ | hnew
    · exact ha.forgotten hw hbefore
    · rw [hx.ahead_of_unregistered hnew.free] at hbefore
      cases hbefore
  credited {id w' f} h' hahead := by
    rcases hremember h' hahead with hbefore | hcredit
    · rcases h.holds_cases hx h' with ⟨w, hw, -⟩ | hnew
      · exact hbacks (ha.credited hw hbefore)
      · rw [hx.ahead_of_unregistered hnew.free] at hbefore
        cases hbefore
    · exact hbacks hcredit

/-- A worker that begins a step does no part of it yet. -/
theorem Applied.begun (ha : x.Applied P server) (h : Advance x m y) (hx : x.Sequential)
    {id' : String} {parts : List Part}
    (hfingerprints : y.state.fingerprints = x.state.fingerprints)
    (hcalls : y.state.calls = x.state.calls)
    (hahead : ∀ id, y.ahead id = if id = id' then parts else x.ahead id)
    (hcall : ∀ plan, parts ≠ [.call plan])
    (hremember : ∀ {w f}, y.state.Holds server id' w → parts = [.remember server f] →
      x.state.Backs P server f) : y.Applied P server := by
  refine ha.frame h hx hfingerprints (fun h => h.congr (lastCall?_congr hcalls server))
    (fun h => h.congr (callsOf_congr hcalls _) (lastCall?_congr hcalls server)) ?_ ?_
  · intro id plan hnext
    rw [hahead] at hnext
    split at hnext
    · exact absurd hnext (hcall plan)
    · exact hnext
  · intro id w f hw hnext
    rw [hahead] at hnext
    split at hnext
    · next hid =>
      rw [hid] at hw
      exact .inr (hremember hw hnext)
    · exact .inl hnext

/-- The commands of a holder that count as applied are those of the latest call. -/
theorem Applied.backs_of_settling (ha : x.Applied P server) (hx : x.Sequential) {id : String}
    {w : Worker} (hw : x.state.Holds server id w) (hphase : w.phase = .settling .applied)
    (hP : P w.script) : x.state.Backs P server w.script.fingerprint := by
  cases hunchanged : w.unchanged with
  | true => exact ha.relied hw hunchanged
  | false =>
    have hcalls := hx.callsOf_settling hw.1 hphase
    rw [hunchanged, if_neg Bool.false_ne_true] at hcalls
    refine ⟨{ plan := w.plan, result := some (.ok ()) }, w.script, ha.latest hw _ ?_, rfl, rfl, hP,
      rfl⟩
    rw [hcalls]
    exact List.mem_singleton_self _

/-- Two holders of one slot are the same. -/
theorem holds_unique {id id' : String} {w w' : Worker} (h : x.state.Holds server id w)
    (h' : x.state.Holds server id' w') : id = id' ∧ w = w' := by
  obtain rfl : id = id' := Option.some.inj (h.2.2.symm.trans h'.2.2)
  exact ⟨rfl, Option.some.inj (h.1.symm.trans h'.1)⟩

section Proceeded
variable {w : Worker} {part : Part} {parts : List Part}
  (hstate : y.state = x.state.carryOut part)
  (hahead : ∀ id, y.ahead id = if id = w.task.id then parts else x.ahead id)
include hstate

/-- No part that is done gives a slot or takes one away. -/
theorem holds_of_proceeded {id : String} {v : Worker} (h : y.state.Holds server id v) :
    x.state.Holds server id v := by
  rw [hstate] at h
  cases part <;> exact h

variable (ha : x.Applied P server) (hw : x.state.worker? w.task.id = some w)
include ha hahead hw

/-- A part for another server changes nothing for this one. -/
theorem Applied.elsewhere (hx : x.Sequential) (howes : w.Owes (part :: parts))
    (hserver : w.task.server ≠ server) : y.Applied P server := by
  have hplan : w.plan.server = w.task.server := (hx.scripted hw).server_eq
  have hfingerprints : y.state.fingerprints.lookup server =
      x.state.fingerprints.lookup server := by
    rw [hstate]
    cases howes with
    | start deadline phase => exact (Assoc.lookup_erase _ _ _).trans (if_neg (Ne.symm hserver))
    | call deadline phase => rfl
    | remember phase => exact (Assoc.lookup_put _ _ _ _).trans (if_neg (Ne.symm hserver))
  have hcalls : y.state.lastCall? server = x.state.lastCall? server ∧
      ∀ id, id ≠ w.task.id → y.state.callsOf id = x.state.callsOf id := by
    rw [hstate]
    cases howes with
    | start deadline phase | remember phase => exact ⟨rfl, fun _ _ => rfl⟩
    | call deadline phase =>
      refine ⟨(lastCall?_append rfl server).trans (if_neg ?_), fun id hid => ?_⟩
      · exact fun h => hserver (hplan.symm.trans h.symm)
      · exact (callsOf_append rfl id).trans (if_neg hid)
  -- a holder of the slot has another task
  have hother : ∀ {id v}, y.state.Holds server id v →
      x.state.Holds server id v ∧ id ≠ w.task.id := by
    intro id v h
    have hv := holds_of_proceeded hstate h
    refine ⟨hv, ?_⟩
    rintro rfl
    obtain rfl := Option.some.inj (hw.symm.trans hv.1)
    exact hserver hv.2.1
  refine ⟨fun {f} hf => ?_, fun {id v} hv => ?_, fun {id v} hv hun => ?_,
    fun {id v plan} hv hnext => ?_, fun {id v f} hv hnext => ?_⟩
  · rw [hfingerprints] at hf
    exact (ha.remembered hf).congr hcalls.1
  · obtain ⟨hv, hid⟩ := hother hv
    exact (ha.latest hv).congr (hcalls.2 id hid) hcalls.1
  · exact (ha.relied (hother hv).1 hun).congr hcalls.1
  · obtain ⟨hv, hid⟩ := hother hv
    rw [hahead, if_neg hid] at hnext
    rw [hfingerprints]
    exact ha.forgotten hv hnext
  · obtain ⟨hv, hid⟩ := hother hv
    rw [hahead, if_neg hid] at hnext
    exact (ha.credited hv hnext).congr hcalls.1

end Proceeded

section Own
variable (ha : x.Applied P server) {w : Worker} (hserver : w.task.server = server)
include ha hserver

/-- A worker that forgets what was applied is about to begin its call. -/
theorem Applied.forgot (hstate : y.state = x.state.carryOut (.forget w.task.server))
    (hahead : ∀ id, y.ahead id = if id = w.task.id then [.call w.plan] else x.ahead id) :
    y.Applied P server := by
  have hnone : y.state.fingerprints.lookup server = none := by
    rw [hstate, hserver]
    exact (Assoc.lookup_erase _ _ _).trans (if_pos rfl)
  have hlast : y.state.lastCall? server = x.state.lastCall? server := by rw [hstate]; rfl
  refine ⟨fun {f} hf => ?_, fun {id v} hv => ?_, fun {id v} hv hun => ?_, fun _ _ => hnone,
    fun {id v f} hv hnext => ?_⟩
  · rw [hnone] at hf
    cases hf
  · exact (ha.latest (holds_of_proceeded hstate hv)).congr (by rw [hstate]; rfl) hlast
  · exact (ha.relied (holds_of_proceeded hstate hv) hun).congr hlast
  · rw [hahead] at hnext
    split at hnext
    · cases hnext
    · exact (ha.credited (holds_of_proceeded hstate hv) hnext).congr hlast

variable (hholder : x.state.Holds server w.task.id w)
  (hahead : ∀ id, y.ahead id = if id = w.task.id then [] else x.ahead id)
include hholder hahead

/-- The holder's call is the latest, and nothing is remembered. -/
theorem Applied.began (hx : x.Sequential) (hphase : isCalling w.phase = true)
    (hnext : x.ahead w.task.id = [.call w.plan])
    (hstate : y.state = x.state.carryOut (.call w.plan)) : y.Applied P server := by
  have hfingerprints : y.state.fingerprints = x.state.fingerprints := by rw [hstate]; rfl
  have hcalls : y.state.calls = x.state.calls ++ [{ plan := w.plan }] := by rw [hstate]; rfl
  have hplan : w.plan.server = server := (hx.scripted hholder.1).server_eq.trans hserver
  obtain ⟨hchanged, hcount⟩ := hx.callsOf_calling hholder.1 hphase
  have hnone : x.state.callsOf w.task.id = [] := by
    rw [begins, hnext] at hcount
    exact List.append_left_eq_self.mp hcount
  have hforgotten := ha.forgotten hholder hnext
  have hown : ∀ {id v}, y.state.Holds server id v → w.task.id = id ∧ w = v := fun hv =>
    holds_unique hholder (holds_of_proceeded hstate hv)
  refine ⟨fun {f} hf => ?_, fun {id v} hv => ?_, fun {id v} hv hun => ?_,
    fun {id v plan} hv hnext => ?_, fun {id v f} hv hnext => ?_⟩
  · rw [hfingerprints, hforgotten] at hf
    cases hf
  · obtain ⟨rfl, rfl⟩ := hown hv
    intro c hc
    rw [callsOf_append hcalls, if_pos (by rfl), hnone, List.nil_append, List.mem_singleton] at hc
    rw [lastCall?_append hcalls, hc]
    exact if_pos hplan.symm
  · obtain ⟨rfl, rfl⟩ := hown hv
    rw [hchanged] at hun
    cases hun
  · rw [hfingerprints]
    exact hforgotten
  · obtain ⟨rfl, rfl⟩ := hown hv
    rw [hahead, if_pos rfl] at hnext
    cases hnext

/-- The holder remembers what is still applied. -/
theorem Applied.recalled
    (hnext : x.ahead w.task.id = [.remember w.task.server w.script.fingerprint])
    (hstate : y.state = x.state.carryOut (.remember w.task.server w.script.fingerprint)) :
    y.Applied P server := by
  have hlast : y.state.lastCall? server = x.state.lastCall? server := by rw [hstate]; rfl
  have hfingerprints : y.state.fingerprints.lookup server = some w.script.fingerprint := by
    rw [hstate, hserver]
    exact (Assoc.lookup_put _ _ _ _).trans (if_pos rfl)
  -- the holder is through with its step
  have hdone : ∀ {id v part}, y.state.Holds server id v → y.ahead id ≠ [part] := by
    intro id v part hv hpart
    obtain ⟨rfl, -⟩ := holds_unique hholder (holds_of_proceeded hstate hv)
    rw [hahead, if_pos rfl] at hpart
    cases hpart
  refine ⟨fun {f} hf => ?_, fun {id v} hv => ?_, fun {id v} hv hun => ?_,
    fun hv hpart => absurd hpart (hdone hv), fun hv hpart => absurd hpart (hdone hv)⟩
  · obtain rfl := Option.some.inj (hfingerprints.symm.trans hf)
    rw [hserver] at hnext
    exact (ha.credited hholder hnext).congr hlast
  · exact (ha.latest (holds_of_proceeded hstate hv)).congr (by rw [hstate]; rfl) hlast
  · exact (ha.relied (holds_of_proceeded hstate hv) hun).congr hlast

end Own

theorem Advance.applied (h : Advance x m y) (hx : x.Sequential) (hlate : ¬ x.Late server m)
    (hP : ∀ {id w}, x.state.worker? id = some w → P w.script) (ha : x.Applied P server) :
    y.Applied P server := by
  have hadvance := h
  cases h with
  | whole effect length fingerprints ahead busy =>
    have hcall : ∀ {id part}, y.ahead id = [part] → x.ahead id = [part] := by
      intro id part h
      rwa [ahead] at h
    rcases effect.recalled length [] with
      ⟨hcalls, -⟩ | ⟨w, outcome, result, found, hcalling, found', hcalls, -⟩
    · exact ha.frame hadvance hx fingerprints (fun h => h.congr (lastCall?_congr hcalls server))
        (fun h => h.congr (callsOf_congr hcalls _) (lastCall?_congr hcalls server)) hcall
        fun _ h => .inl (hcall h)
    · have hfree := ahead_eq_nil_of_settling (busy · found) hcalling found'
      have hown := (hx.callsOf_calling found hcalling).2
      rw [begins_eq_nil hfree, List.append_nil] at hown
      exact ha.frame hadvance hx fingerprints (Backs.returned hcalls hown) (Latest.returned hcalls)
        hcall fun _ h => .inl (hcall h)
  | entered deadline found free phase entry pending unchanged timed state ahead =>
    exact ha.begun hadvance hx (by rw [state]; rfl) (by rw [state]; rfl) ahead (by simp) (by simp)
  | concluded now found free phase entry recorded state ahead =>
    refine ha.begun hadvance hx (by rw [state]; rfl) (by rw [state]; rfl) ahead (by simp) ?_
    intro v f hv hparts
    obtain ⟨-, rfl⟩ := Part.remember.inj (List.singleton_inj.mp hparts)
    rcases hadvance.holds_cases hx hv with ⟨u, hu, -⟩ | hnew
    · obtain rfl := Option.some.inj (found.symm.trans hu.1)
      exact ha.backs_of_settling hx hu phase (hP found)
    · exact absurd hnew.free (hx.registered found)
  | @proceeded id part parts own next state ahead =>
    have hbusy : x.ahead id ≠ [] := by simp [next]
    obtain ⟨w, found, howes⟩ := hx.owes hbusy
    obtain rfl := id_of_worker? found
    rw [next] at howes
    by_cases hserver : w.task.server = server
    · have hholder : part.server = server → part ≠ .forget server →
          x.state.Holds server w.task.id w := by
        intro hpart hkept
        refine ⟨found, hserver, ?_⟩
        by_contra hlease
        exact hlate ⟨w.task.id, part, parts, own, next, hpart, hkept, hlease⟩
      cases howes with
      | start deadline phase => exact ha.forgot hserver state ahead
      | call deadline phase =>
        have hplan : w.plan.server = server := (hx.scripted found).server_eq.trans hserver
        exact ha.began hserver (hholder hplan (by simp)) ahead hx (by simp [phase, isCalling]) next
          state
      | remember phase => exact ha.recalled hserver (hholder hserver (by simp)) ahead next state
    · exact Applied.elsewhere state ahead ha found hx howes hserver
  | waited ms moved =>
    subst moved
    exact ⟨ha.remembered, ha.latest, ha.relied, ha.forgotten, ha.credited⟩

end Interleaving
end FirewallRollout.Rebuild
