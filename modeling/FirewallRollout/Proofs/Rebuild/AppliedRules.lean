import FirewallRollout.Proofs.Rebuild.WholeSteps
import FirewallRollout.Proofs.Script.Fingerprint

/-!
# Success means applied rules

Unless rebuilds may be concurrent, a task becomes a success only by its own call or, if it was not
forced, by one that it skips. The commands of its script are then those that the latest call for its
server has applied, provided that no worker acts late: the slot of a task that has ended may be taken
over while its worker has still to remember what it applied, or to begin its call.
-/
namespace FirewallRollout.Rebuild

/-- Scripts of workers that are digested alike are the same to the octet. -/
def Collisionless (states : List State) : Prop :=
  ∀ s ∈ states, ∀ v ∈ s.workers, ∀ s' ∈ states, ∀ w ∈ s'.workers,
    Sha256.digest v.script.hashed = Sha256.digest w.script.hashed →
      v.script.hashed = w.script.hashed

/-- A script that a worker was given in some states. -/
def GivenIn (states : List State) (script : Script) : Prop :=
  (∃ s ∈ states, ∃ w ∈ s.workers, w.script = script) ∧ ∃ server, Scripted server script

theorem Collisionless.commands_eq {states : List State} (h : Collisionless states)
    {script script' : Script} (hscript : GivenIn states script) (hscript' : GivenIn states script')
    (hfingerprint : script.fingerprint = script'.fingerprint) :
    script.commands = script'.commands := by
  obtain ⟨⟨s, hs, w, hw, rfl⟩, server, hscripted⟩ := hscript
  obtain ⟨⟨s', hs', w', hw', rfl⟩, server', hscripted'⟩ := hscript'
  exact hscripted.commands_eq hscripted' hfingerprint (h s hs w hw s' hs' w' hw')

namespace Interleaving
open State
variable {x y : Interleaving} {m : Move} {server id : String}

def initial (settings : Settings) (inventory : Inventory) (registry : Registry) : Interleaving :=
  { state := .initial settings inventory registry }

/-- The states of a run, the first one included. -/
def trace (x : Interleaving) : List Move → List State
  | [] => [x.state]
  | m :: moves => x.state :: (x.move m).trace moves

theorem run_mem_trace (x : Interleaving) (moves : List Move) :
    (x.run moves).state ∈ x.trace moves := by
  induction moves generalizing x with
  | nil => exact .head _
  | cons m moves ih => exact .tail _ (ih (x.move m))

theorem Sequential.initial {settings : Settings} (hsequential : settings.allowConcurrent = false)
    (inventory : Inventory) (registry : Registry) :
    (initial settings inventory registry).Sequential :=
  sequential_of_state (sequential_initial hsequential inventory registry)

theorem Sequential.givenIn (hx : x.Sequential) {states : List State} (hmem : x.state ∈ states)
    {w : Worker} (hw : x.state.worker? id = some w) : GivenIn states w.script :=
  ⟨⟨x.state, hmem, w, List.mem_of_find?_eq_some hw, rfl⟩, _, hx.scripted hw⟩

/-- Without a late move, fingerprints are remembered for scripts that were given in the run. -/
theorem Applied.run {states : List State} (hx : x.Sequential)
    (ha : x.Applied (GivenIn states) server) (moves : List Move) (hlate : ¬ x.LateIn server moves)
    (hstates : ∀ s ∈ x.trace moves, s ∈ states) :
    (x.run moves).Applied (GivenIn states) server := by
  induction moves generalizing x with
  | nil => exact ha
  | cons m moves ih =>
    obtain ⟨hnow, hlater⟩ := not_or.mp hlate
    have hmem : x.state ∈ states := hstates _ (.head _)
    refine ih (hx.move m) ?_ hlater fun s hs => hstates s (.tail _ hs)
    rcases x.move_advance m with hsame | h
    · rw [hsame]
      exact ha
    · exact h.applied hx hnow (hx.givenIn hmem) ha

/-- A registered task has the worker that it had, or none. -/
theorem Sequential.worker_move (hx : x.Sequential) (m : Move)
    (hregistered : x.state.registry.find? id ≠ none) :
    (x.move m).state.registry.find? id ≠ none ∧ ∀ {w'}, (x.move m).state.worker? id = some w' →
      ∃ w, x.state.worker? id = some w ∧ w.SameJob w' := by
  rcases x.move_advance m with hsame | h
  · rw [hsame]
    exact ⟨hregistered, fun {w'} hw' => ⟨w', hw', .refl w'⟩⟩
  · obtain ⟨calls, calls', fingerprints, clock, hs, -, heffect, -⟩ := h.effect hx
    obtain ⟨e, he⟩ := Option.ne_none_iff_exists'.mp hregistered
    obtain ⟨e', he', -⟩ := heffect.task_follows hs.coherent he
    refine ⟨fun hnone => ?_, fun hw' => ?_⟩
    · cases hnone.symm.trans he'
    · obtain ⟨w, hw, hcontinues⟩ := heffect.worker_origin hregistered hw'
      exact ⟨w, hw, hcontinues.toSameJob⟩

theorem Sequential.worker_run (hx : x.Sequential) (moves : List Move)
    (hregistered : x.state.registry.find? id ≠ none) :
    (x.run moves).state.registry.find? id ≠ none ∧ ∀ {w'}, (x.run moves).state.worker? id = some w' →
      ∃ w, x.state.worker? id = some w ∧ w.SameJob w' := by
  induction moves generalizing x with
  | nil => exact ⟨hregistered, fun {w'} hw' => ⟨w', hw', .refl w'⟩⟩
  | cons m moves ih =>
    obtain ⟨hnext, hworker⟩ := hx.worker_move m hregistered
    obtain ⟨hlast, hlater⟩ := ih (hx.move m) hnext
    refine ⟨hlast, fun hw' => ?_⟩
    obtain ⟨v, hv, hsame'⟩ := hlater hw'
    obtain ⟨w, hw, hsame⟩ := hworker hv
    exact ⟨w, hw, hsame.trans hsame'⟩

/-- A task becomes a success only when its live worker settles that its rules were applied. -/
theorem Advance.of_success (h : Advance x m y) {e e' : Registry.Entry}
    (he : x.state.registry.find? id = some e) (he' : y.state.registry.find? id = some e')
    (hbefore : e.task.status ≠ .success) (hafter : e'.task.status = .success) :
    ∃ w, x.state.Live id w ∧ w.phase = .settling .applied ∧ y.state.calls = x.state.calls := by
  cases h with
  | whole effect length fingerprints ahead busy => exact effect.of_success he he' hbefore hafter
  | entered deadline found free phase entry pending unchanged timed state ahead =>
    have heffect := Effect.called deadline found phase entry pending unchanged timed
    rw [state] at he'
    obtain ⟨-, -, -, hcalls⟩ := heffect.of_success he he' hbefore hafter
    simp at hcalls
  | concluded now found free phase entry recorded state ahead =>
    have heffect := Effect.settled now found phase entry recorded
    rw [state] at he' ⊢
    exact heffect.of_success he he' hbefore hafter
  | @proceeded id' part parts own next state ahead =>
    have hregistry : y.state.registry = x.state.registry := by
      rw [state]
      cases part <;> rfl
    rw [hregistry] at he'
    obtain rfl := Option.some.inj (he.symm.trans he')
    exact absurd hafter hbefore
  | waited ms moved =>
    rw [moved] at he'
    obtain rfl := Option.some.inj (he.symm.trans he')
    exact absurd hafter hbefore

/-- A task that was triggered becomes a success by the worker that was given its script. -/
theorem Sequential.worker_of_success {r : Interleaving} (hx : x.Sequential) {force : Bool}
    {now : Int64} {t : Task} (h : (x.state.trigger server force id now).1 = .ok t)
    (after : List Move) (last : Move)
    (hr : r = (x.move (.step (.trigger server force id now))).run after)
    (hbefore : ∀ u, r.state.registry.get id = .ok u → u.status ≠ .success) {u : Task}
    (hafter : (r.move last).state.registry.get id = .ok u) (hsuccess : u.status = .success) :
    ∃ script w, x.state.scriptFor server true .plain = .ok script ∧ r.state.Live id w ∧
      w.phase = .settling .applied ∧
      Worker.SameJob { task := t, script, unchanged := !force && x.state.isUnchanged script } w ∧
      (r.move last).state.calls = r.state.calls := by
  obtain ⟨script, hscript, hworker⟩ := worker?_of_trigger hx.registered h
  have hregistered : (x.state.step (.trigger server force id now)).registry.find? id ≠ none := by
    simp [(find?_of_trigger h).2]
  obtain ⟨hknown, horigin⟩ := (hx.move (.step (.trigger server force id now))).worker_run after hregistered
  rw [← hr] at hknown horigin
  obtain ⟨e, he⟩ := Option.ne_none_iff_exists'.mp hknown
  obtain ⟨e', he', rfl⟩ := Registry.get_eq_ok_iff.mp hafter
  have hnot : e.task.status ≠ .success := hbefore _ (Registry.get_eq_ok_iff.mpr ⟨e, he, rfl⟩)
  rcases r.move_advance last with hsame | hadvance
  · rw [hsame] at he'
    obtain rfl := Option.some.inj (he.symm.trans he')
    exact absurd hsuccess hnot
  · obtain ⟨w, hlive, hphase, hcalls⟩ := hadvance.of_success he he' hnot hsuccess
    obtain ⟨v, hv, hjob⟩ := horigin hlive.1
    obtain rfl := Option.some.inj (hworker.symm.trans hv)
    exact ⟨script, w, hscript, hlive, hphase, hjob, hcalls⟩

/-- A worker whose commands count as applied has made one call, which returned well, or it skips it. -/
theorem Sequential.own_call (hx : x.Sequential) {w : Worker} (hw : x.state.worker? id = some w)
    (hphase : w.phase = .settling .applied) :
    (∃ call, x.state.callsOf id = [call] ∧ call.result = some (.ok ()) ∧
        call.plan.commands = w.script.commands) ∨
      w.unchanged = true ∧ x.state.callsOf id = [] := by
  have hcalls := hx.callsOf_settling hw hphase
  cases hunchanged : w.unchanged with
  | false =>
    rw [hunchanged, if_neg Bool.false_ne_true] at hcalls
    exact .inl ⟨_, hcalls, rfl, rfl⟩
  | true =>
    rw [hunchanged, if_pos rfl] at hcalls
    exact .inr ⟨rfl, hcalls⟩

/-- The latest call for its server is that call, or one with the same commands. -/
theorem Applied.latest_call {states : List State} (ha : x.Applied (GivenIn states) server)
    (hx : x.Sequential) (hmem : x.state ∈ states) (hcollisionless : Collisionless states)
    {w : Worker} (hw : x.state.Holds server id w) (hphase : w.phase = .settling .applied) :
    ∃ call, x.state.lastCall? server = some call ∧ call.result = some (.ok ()) ∧
      call.plan.commands = w.script.commands ∧
      (call.plan.task = id ∨ w.unchanged = true ∧ x.state.callsOf id = []) := by
  have hgiven := hx.givenIn hmem hw.1
  obtain ⟨call, script, hcall, hok, hcommands, hscript, hfingerprint⟩ :=
    ha.backs_of_settling hx hw hphase hgiven
  refine ⟨call, hcall, hok,
    hcommands.trans (hcollisionless.commands_eq hscript hgiven hfingerprint), ?_⟩
  rcases hx.own_call hw.1 hphase with ⟨own, hown, -⟩ | hskipped
  · left
    have hmem : own ∈ x.state.callsOf id := by rw [hown]; exact List.mem_singleton_self _
    obtain rfl := Option.some.inj (hcall.symm.trans (ha.latest hw own hmem))
    exact (mem_callsOf.mp hmem).2
  · exact .inr hskipped

/-- A task that becomes a success has made its own call, which returned well, or it was not forced and
skipped it. Unless some move for its server came late, the latest call for the server has then
returned well, and its commands are those of the task. No move of a run of whole steps comes late. -/
theorem success_applied (settings : Settings) (inventory : Inventory) (registry : Registry)
    (hsequential : settings.allowConcurrent = false) (before after : List Move) (last : Move)
    {x r : Interleaving} (hx : x = (initial settings inventory registry).run before)
    {server id : String} {force : Bool} {now : Int64} {t : Task}
    (htrigger : (x.state.trigger server force id now).1 = .ok t)
    (hr : r = (x.move (.step (.trigger server force id now))).run after)
    (hcollisionless : Collisionless ((initial settings inventory registry).trace
      (before ++ .step (.trigger server force id now) :: after)))
    (hbefore : ∀ u, r.state.registry.get id = .ok u → u.status ≠ .success) {s : State}
    (hs : s = (r.move last).state) {u : Task} (hafter : s.registry.get id = .ok u)
    (hsuccess : u.status = .success) :
    ∃ script, x.state.scriptFor server true .plain = .ok script ∧
      ((∃ call, s.callsOf id = [call] ∧ call.result = some (.ok ()) ∧
          call.plan.commands = script.commands) ∨ force = false ∧ s.callsOf id = []) ∧
      ((∃ call, s.lastCall? server = some call ∧ call.result = some (.ok ()) ∧
          call.plan.commands = script.commands ∧
          (call.plan.task = id ∨ force = false ∧ s.callsOf id = [])) ∨
        (initial settings inventory registry).LateIn server
          (before ++ .step (.trigger server force id now) :: after)) ∧
      ∀ events : List Event,
        before ++ .step (.trigger server force id now) :: after = events.flatMap Event.moves →
        ¬ (initial settings inventory registry).LateIn server
          (before ++ .step (.trigger server force id now) :: after) := by
  subst hs
  have hinitial := Sequential.initial hsequential inventory registry
  have hbefore' : x.Sequential := hx ▸ hinitial.run before
  obtain ⟨script, w, hscript, hlive, hphase, hsame, hcalls⟩ :=
    hbefore'.worker_of_success htrigger after last hr hbefore hafter hsuccess
  -- the whole run, in which the fingerprints were remembered
  have hwhole : (initial settings inventory registry).run
      (before ++ .step (.trigger server force id now) :: after) = r := by
    rw [run_append, ← hx, hr]
    rfl
  have hr' := hinitial.run (before ++ .step (.trigger server force id now) :: after)
  have hmem := (initial settings inventory registry).run_mem_trace
    (before ++ .step (.trigger server force id now) :: after)
  rw [hwhole] at hr' hmem
  have hserver : w.task.server = server := by
    rw [hsame.task, (find?_of_trigger htrigger).1]
    rfl
  have hholds := hr'.holds hlive
  rw [hserver] at hholds
  have hforced : w.unchanged = true → force = false := by
    intro h
    rw [hsame.unchanged, Bool.and_eq_true, Bool.not_eq_true'] at h
    exact h.1
  obtain rfl : script = w.script := hsame.script.symm
  -- the step that records the success begins no call and returns none
  rw [callsOf_congr hcalls, lastCall?_congr hcalls]
  refine ⟨w.script, hscript, ?_, ?_, fun events hevents => ?_⟩
  · exact (hr'.own_call hlive.1 hphase).imp_right fun h => ⟨hforced h.1, h.2⟩
  · by_cases hlate : (initial settings inventory registry).LateIn server
      (before ++ .step (.trigger server force id now) :: after)
    · exact .inr hlate
    have happlied := (applied_initial settings inventory registry).run hinitial
      (before ++ .step (.trigger server force id now) :: after) hlate fun s hs => hs
    rw [hwhole] at happlied
    obtain ⟨call, hcall, hok, hcommands, hown⟩ :=
      happlied.latest_call hr' hmem hcollisionless hholds hphase
    exact .inl ⟨call, hcall, hok, hcommands, hown.imp_right fun h => ⟨hforced h.1, h.2⟩⟩
  · rw [hevents]
    exact not_lateIn_flatMap_moves (sequential_initial hsequential inventory registry) server events

/-- A success that is remembered late: another rebuild has begun its call by then, which fails, and a
third one skips its call although nothing is applied any more. -/
theorem success_applied_late :
    let inventory : Inventory := { shelves := [("web",
      [{ id := .number 1, server := "web", chain := "INPUT", action := "ACCEPT" }])] }
    let before : List Move := [.step (.trigger "web" false "a" 0), .step (.start "a"),
      .proceed "a", .proceed "a", .step (.finish "a" (.ok ())), .step (.settle "a" 1),
      .step (.trigger "web" true "b" 2), .step (.start "b"), .proceed "b", .proceed "b",
      .proceed "a", .step (.finish "b" (.error ⟨0, 1, "flush refused"⟩)), .step (.settle "b" 3)]
    let x := (initial {} inventory {}).run before
    let r := (x.move (.step (.trigger "web" false "c" 4))).run [.step (.start "c")]
    let s := (r.move (.step (.settle "c" 5))).state
    (s.registry.get "c").map Task.status = .ok .success ∧ s.callsOf "c" = [] ∧
      s.lastCall? "web" = some
        { plan := ⟨"b", "web", Script.flushes, ["iptables -A INPUT -j ACCEPT"]⟩
          result := some (.error ⟨0, 1, "flush refused"⟩) } ∧
      (initial {} inventory {}).LateIn "web"
        (before ++ .step (.trigger "web" false "c" 4) :: [.step (.start "c")]) := by
  intro inventory before x r s
  have htrigger : (x.state.trigger "web" false "c" 4).1 = .ok (.create "c" "web" 1 false 4) := by
    decide +kernel
  have hrunning : r.state.registry.get "c" =
      .ok { Task.create "c" "web" 1 false 4 with status := .running } := by
    decide +kernel
  have hend : s.registry.get "c" = .ok
        { Task.create "c" "web" 1 false 4 with
          status := .success, processed := 1, completedAt := some 5 } ∧
      s.callsOf "c" = [] ∧
      s.lastCall? "web" = some
        { plan := ⟨"b", "web", Script.flushes, ["iptables -A INPUT -j ACCEPT"]⟩
          result := some (.error ⟨0, 1, "flush refused"⟩) } := by
    decide +kernel
  obtain ⟨hdone, hcalls, hlast⟩ := hend
  have hgiven : ∀ y ∈ (initial {} inventory {}).trace
      (before ++ .step (.trigger "web" false "c" 4) :: [.step (.start "c")]),
      ∀ w ∈ y.workers, w.script.commands = ["iptables -A INPUT -j ACCEPT"] := by
    decide +kernel
  have hcollisionless : Collisionless ((initial {} inventory {}).trace
      (before ++ .step (.trigger "web" false "c" 4) :: [.step (.start "c")])) := by
    intro y hy v hv z hz w hw _
    rw [Script.hashed, Script.hashed, hgiven y hy v hv, hgiven z hz w hw]
  have hbefore : ∀ u, r.state.registry.get "c" = .ok u → u.status ≠ .success := by
    intro u hu
    rw [hrunning] at hu
    obtain rfl := Except.ok.inj hu
    decide
  refine ⟨by rw [hdone]; rfl, hcalls, hlast, ?_⟩
  obtain ⟨script, -, -, ⟨call, hcall, hok, -⟩ | hlate, -⟩ := success_applied {} inventory {} rfl before
    [.step (.start "c")] (.step (.settle "c" 5)) (x := x) (r := r) rfl htrigger rfl hcollisionless
    hbefore (s := s) rfl hdone rfl
  · -- the latest call is the one that failed
    obtain rfl := Option.some.inj (hlast.symm.trans hcall)
    cases hok
  · exact hlate

/-- A call that begins late: its task was cancelled before, and the task that took the slot over
becomes a success after it. -/
example :
    let s := ((initial {} { shelves := [("web", [])] } {}).run [.step (.trigger "web" true "a" 0),
      .step (.start "a"), .proceed "a", .step (.cancel "a" 1), .step (.trigger "web" true "b" 2),
      .step (.start "b"), .proceed "b", .proceed "b", .step (.finish "b" (.ok ())), .proceed "a",
      .step (.settle "b" 3)]).state
    (s.registry.get "b").map Task.status = .ok .success ∧
      s.lastCall? "web" = some { plan := ⟨"a", "web", Script.flushes, []⟩ } := by
  decide +kernel

end Interleaving
end FirewallRollout.Rebuild
