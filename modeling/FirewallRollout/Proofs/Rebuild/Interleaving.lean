import FirewallRollout.Proofs.Rebuild.Acts
import FirewallRollout.Rebuild.Interleaving

/-!
# What a move does

A move is a step that is through at once, the beginning of a step of several parts, one of these
parts, or time that passes. As with the effects of whole steps, invariants are proved by going through
this list. A worker in the middle of its step stays as it is, but for its token, until it is through.
-/
namespace FirewallRollout.Rebuild

namespace State
variable {s : State} {id : String}

/-- Only the start and the end of a task may change what is remembered of its server. -/
theorem fingerprints_step {e : Event} (hstart : ∀ id, e ≠ .start id)
    (hsettle : ∀ id now, e ≠ .settle id now) : (s.step e).fingerprints = s.fingerprints := by
  cases e with
  | trigger server force id now =>
    rw [step]
    cases h : s.trigger server force id now with
    | mk result s' =>
      cases result with
      | error error => rcases trigger_error h with rfl | rfl <;> rfl
      | ok t =>
        obtain ⟨script, total, registry, -, -, -, -, -, -, rfl⟩ := trigger_ok h
        rfl
  | cancel id now =>
    rcases s.cancel_cases id now with hsame | ⟨e, -, -, hs'⟩
    · rw [hsame]
    · rw [hs', fingerprints_withWorker]
  | shutDown => rfl
  | edit inventory => rfl
  | start id => exact absurd rfl (hstart id)
  | report id n =>
    rw [step, report]
    split
    · rfl
    cases hsome : s.withTask? id fun t => (.ok (), t.progress n) with
    | none => rfl
    | some s' =>
      obtain ⟨e, t, -, -, rfl⟩ := withTask?_eq_some_iff.mp hsome
      rfl
  | revoke id =>
    rw [step, revoke]
    split <;> rfl
  | finish id result =>
    rw [step, finish]
    split
    · rfl
    split <;> rfl
  | expire id =>
    rw [step, expire]
    split
    · split <;> rfl
    · rfl
  | notice id =>
    rw [step, notice]
    split <;> rfl
  | abandon id =>
    rw [step, abandon]
    split
    · split <;> rfl
    · rfl
  | settle id now => exact absurd rfl (hsettle id now)
  | release id =>
    rw [step, release]
    split <;> rfl
  | pass ms =>
    rw [step, pass]
    split <;> rfl

/-- The registry comes first. -/
theorem memory_enter (s : State) (id : String) :
    (s.enter id).1.calls = s.calls ∧ (s.enter id).1.fingerprints = s.fingerprints := by
  unfold enter
  split
  · exact ⟨rfl, rfl⟩
  split
  · exact ⟨rfl, rfl⟩
  next s' hs =>
  obtain ⟨e, t, -, -, rfl⟩ := withTask?_eq_some_iff.mp hs
  split <;> exact ⟨rfl, rfl⟩

theorem memory_conclude (s : State) (id : String) (now : Int64) :
    (s.conclude id now).1.calls = s.calls ∧
      (s.conclude id now).1.fingerprints = s.fingerprints := by
  unfold conclude
  split
  · split
    · exact ⟨rfl, rfl⟩
    next s' hs =>
    obtain ⟨e, t, -, -, rfl⟩ := withTask?_eq_some_iff.mp hs
    exact ⟨rfl, rfl⟩
  · exact ⟨rfl, rfl⟩

/-- A worker is left to itself, but for its token, by steps that are not its own. -/
theorem worker?_step_of_other {e : Event} (he : e.worker? ≠ some id) {w : Worker}
    (hw : s.worker? id = some w) :
    ∃ cancelled, (s.step e).worker? id = some { w with cancelled } := by
  have hsame : (s.step e).worker? id = s.worker? id →
      ∃ cancelled, (s.step e).worker? id = some { w with cancelled } :=
    fun h => ⟨w.cancelled, h.trans hw⟩
  have hother : ∀ {id' : String}, e.worker? = some id' → Serves id' s (s.step e) →
      ∃ cancelled, (s.step e).worker? id = some { w with cancelled } := by
    intro id' hid' hserves
    refine hsame (hserves.others ?_)
    rintro rfl
    exact he hid'
  cases e with
  | trigger server force id' now =>
    refine hsame ?_
    rw [step]
    cases h : s.trigger server force id' now with
    | mk result s' =>
      cases result with
      | error error => rcases trigger_error h with rfl | rfl <;> rfl
      | ok t =>
        obtain ⟨script, total, registry, -, -, -, -, -, -, rfl⟩ := trigger_ok h
        rw [worker?_append (s := s) rfl, hw, Option.some_or]
  | cancel id' now =>
    rcases s.cancel_cases id' now with h | ⟨e, -, -, h⟩
    · exact hsame (by rw [h])
    · rw [h, worker?_withWorker _ _ (fun v => { v with cancelled := true }) fun _ => rfl]
      by_cases hid : id = id'
      · subst hid
        exact ⟨true, (if_pos rfl).trans (congrArg (Option.map _) hw)⟩
      · exact ⟨w.cancelled, (if_neg hid).trans hw⟩
  | shutDown => exact ⟨true, by rw [step, worker?_shutDown, hw, Option.map_some]⟩
  | edit inventory => exact hsame rfl
  | start id' => exact hother rfl (serves_start s id')
  | report id' n => exact hother rfl (serves_report s id' n)
  | revoke id' => exact hother rfl (serves_revoke s id')
  | finish id' result => exact hother rfl (serves_finish s id' result)
  | expire id' => exact hother rfl (serves_expire s id')
  | notice id' => exact hother rfl (serves_notice s id')
  | abandon id' => exact hother rfl (serves_abandon s id')
  | settle id' now => exact hother rfl (serves_settle s id' now)
  | release id' => exact hother rfl (serves_release s id')
  | pass ms =>
    refine hsame ?_
    rw [step, worker?, workers_pass, worker?]

end State

namespace Interleaving
open State

theorem run_append (x : Interleaving) (moves later : List Move) :
    x.run (moves ++ later) = (x.run moves).run later := List.foldl_append

theorem getD_lookup_leave (x : Interleaving) (id : String) (parts : List Part) (id' : String) :
    ((x.leave id parts).lookup id').getD [] = if id' = id then parts else x.ahead id' := by
  unfold leave ahead
  split
  · next hempty =>
    rw [Assoc.lookup_erase, List.isEmpty_iff.mp hempty]
    split <;> rfl
  · rw [Assoc.lookup_put]
    split <;> rfl

theorem ahead_begun (x : Interleaving) (id : String) (step : State × List Part) (id' : String) :
    (x.begun id step).ahead id' = if id' = id then step.2 else x.ahead id' :=
  x.getD_lookup_leave id step.2 id'

/-- What a move that changes something does. -/
inductive Advance (x : Interleaving) (m : Move) (y : Interleaving) : Prop
  /-- A step that is through at once. It begins no call. -/
  | whole (effect : Effect x.state y.state) (calls : y.state.calls.length = x.state.calls.length)
      (fingerprints : y.state.fingerprints = x.state.fingerprints)
      (ahead : ∀ id, y.ahead id = x.ahead id)
      (busy : ∀ {id w}, x.ahead id ≠ [] → x.state.worker? id = some w →
        ∃ cancelled, y.state.worker? id = some { w with cancelled })
  /-- A worker starts its task and has the fingerprint to forget and its call to begin. -/
  | entered {w : Worker} {e : Registry.Entry} (deadline : Nat)
      (found : x.state.worker? w.task.id = some w) (free : x.ahead w.task.id = [])
      (phase : w.phase = .queued) (entry : x.state.registry.find? w.task.id = some e)
      (pending : e.task.status = .pending) (unchanged : w.unchanged = false)
      (timed : deadline = x.state.clock + x.state.budgetMs w.task)
      (state : y.state = withWorker
        { x.state with registry := x.state.registry.amend e { e.task with status := .running } }
        w.task.id fun w => { w with phase := .executing deadline })
      (ahead : ∀ id, y.ahead id =
        if id = w.task.id then [.forget w.task.server, .call w.plan] else x.ahead id)
  /-- A worker records the success of its task and has the fingerprint to remember. -/
  | concluded {w : Worker} {e : Registry.Entry} {t : Task} (now : Int64)
      (found : x.state.worker? w.task.id = some w) (free : x.ahead w.task.id = [])
      (phase : w.phase = .settling .applied) (entry : x.state.registry.find? w.task.id = some e)
      (recorded : x.state.settleTask e.task .applied now = (.ok (), t))
      (state : y.state = withWorker { x.state with registry := x.state.registry.amend e t }
        w.task.id fun w => { w with phase := .releasing })
      (ahead : ∀ id, y.ahead id =
        if id = w.task.id then [.remember w.task.server w.script.fingerprint] else x.ahead id)
  | proceeded {id : String} {part : Part} {parts : List Part} (own : m = .proceed id)
      (next : x.ahead id = part :: parts) (state : y.state = x.state.carryOut part)
      (ahead : ∀ id', y.ahead id' = if id' = id then parts else x.ahead id')
  | waited (ms : Nat) (moved : y = x.wait ms)

/-- A step that is not the own step of a worker in the middle of one, and has no parts left. -/
theorem advance_whole {x y : Interleaving} {e : Event} (hallowed : x.allows e = true)
    (hstate : y.state = x.state.step e) (hcalls : y.state.calls.length = x.state.calls.length)
    (hfingerprints : y.state.fingerprints = x.state.fingerprints)
    (hahead : ∀ id, y.ahead id = x.ahead id) : Advance x (.step e) y := by
  refine .whole (hstate ▸ x.state.step_effect e) hcalls hfingerprints hahead fun {id w} hbusy hw => ?_
  rw [hstate]
  refine worker?_step_of_other (fun hid => hbusy ?_) hw
  simpa [allows, hid] using hallowed

theorem ahead_of_allows_worker {x : Interleaving} {e : Event} {id : String}
    (hallowed : x.allows e = true) (hid : e.worker? = some id) : x.ahead id = [] := by
  simpa [allows, hid] using hallowed

/-- A step that is begun is over if it has no parts. -/
theorem begun_advance {x : Interleaving} {e : Event} {id : String} {step : State × List Part}
    (hallowed : x.allows e = true) (hid : e.worker? = some id) (hparts : step.2 = [])
    (hstep : complete step = x.state.step e)
    (hmemory : step.1.calls = x.state.calls ∧ step.1.fingerprints = x.state.fingerprints) :
    Advance x (.step e) (x.begun id step) := by
  have hstate : step.1 = x.state.step e := by
    rw [← hstep, complete, hparts, List.foldl_nil]
  refine advance_whole hallowed hstate (congrArg List.length hmemory.1) hmemory.2 fun id' => ?_
  rw [ahead_begun, hparts]
  split
  · next h => rw [h, ahead_of_allows_worker hallowed hid]
  · rfl

theorem start_advance {x : Interleaving} {id : String} (hallowed : x.allows (.start id) = true) :
    Advance x (.step (.start id)) (x.begun id (x.state.enter id)) := by
  have hwhole : (x.state.enter id).2 = [] →
      Advance x (.step (.start id)) (x.begun id (x.state.enter id)) := fun h =>
    begun_advance hallowed rfl h rfl (x.state.memory_enter id)
  cases hw : x.state.workerIn? id (· == .queued) with
  | none => exact hwhole (by simp only [enter, hw])
  | some w =>
    obtain ⟨hfound, hphase⟩ := workerIn?_eq_some_iff.mp hw
    obtain rfl := id_of_worker? hfound
    cases hs : x.state.withTask? w.task.id Task.start with
    | none => exact hwhole (by simp only [enter, hw, hs])
    | some s =>
      obtain ⟨e, t, he, ht, rfl⟩ := withTask?_eq_some_iff.mp hs
      obtain ⟨hpending, rfl⟩ := Task.start_ok ht
      cases hunchanged : w.unchanged with
      | true => exact hwhole (by simp only [enter, hw, hs, hunchanged, if_true])
      | false =>
        refine .entered _ hfound (ahead_of_allows_worker hallowed rfl) (by simpa using hphase) he
          hpending hunchanged rfl ?_ fun id' => ?_
        · simp only [begun, enter, hw, hs, hunchanged, Bool.false_eq_true, if_false]
          rfl
        · rw [ahead_begun]
          simp only [enter, hw, hs, hunchanged, Bool.false_eq_true, if_false]

theorem settle_advance {x : Interleaving} {id : String} {now : Int64}
    (hallowed : x.allows (.settle id now) = true) :
    Advance x (.step (.settle id now)) (x.begun id (x.state.conclude id now)) := by
  have hwhole : (x.state.conclude id now).2 = [] →
      Advance x (.step (.settle id now)) (x.begun id (x.state.conclude id now)) := fun h =>
    begun_advance hallowed rfl h rfl (x.state.memory_conclude id now)
  cases hw : x.state.worker? id with
  | none => exact hwhole (by simp only [conclude, hw])
  | some w =>
    obtain rfl := id_of_worker? hw
    obtain ⟨task, script, unchanged, cancelled, phase⟩ := w
    cases phase with
    | settling outcome =>
      cases hs : x.state.withTask? task.id fun t => x.state.settleTask t outcome now with
      | none => exact hwhole (by simp only [conclude, hw, hs])
      | some s =>
        obtain ⟨e, t, he, ht, rfl⟩ := withTask?_eq_some_iff.mp hs
        by_cases happlied : outcome = .applied
        · subst happlied
          refine .concluded now hw (ahead_of_allows_worker hallowed rfl) rfl he ht ?_ fun id' => ?_
          · simp only [begun, conclude, hw, hs]
            rfl
          · rw [ahead_begun]
            simp only [conclude, hw, hs, if_true]
        · exact hwhole (by simp only [conclude, hw, hs, if_neg happlied])
    | queued | executing | winding | releasing => exact hwhole (by simp only [conclude, hw])

/-- A step that has no parts does not begin a call either. -/
theorem step_advance {x : Interleaving} {e : Event} (hallowed : x.allows e = true) :
    Advance x (.step e) (x.take e) := by
  by_cases hstart : ∃ id, e = .start id
  · obtain ⟨id, rfl⟩ := hstart
    exact start_advance hallowed
  by_cases hsettle : ∃ id now, e = .settle id now
  · obtain ⟨id, now, rfl⟩ := hsettle
    exact settle_advance hallowed
  have hstart' : ∀ id, e ≠ .start id := fun id h => hstart ⟨id, h⟩
  have hsettle' : ∀ id now, e ≠ .settle id now := fun id now h => hsettle ⟨id, now, h⟩
  have htake : x.take e = { x with state := x.state.step e } := by
    cases e with
    | start id => exact absurd rfl (hstart' id)
    | settle id now => exact absurd rfl (hsettle' id now)
    | _ => rfl
  rw [htake]
  refine advance_whole hallowed rfl ?_ (fingerprints_step hstart' hsettle') fun _ => rfl
  rcases x.state.calls_step e with hcalls | ⟨w, rfl, -⟩ | ⟨id, result, -, hcalls⟩
  · exact congrArg List.length hcalls
  · exact absurd rfl (hstart' _)
  · rw [hcalls, withResult, List.length_map]

/-- Every move is one of these, or it changes nothing. -/
theorem move_advance (x : Interleaving) (m : Move) : x.move m = x ∨ Advance x m (x.move m) := by
  cases m with
  | step e =>
    rw [move]
    split
    · next hallowed => exact .inr (step_advance hallowed)
    · exact .inl rfl
  | proceed id =>
    rw [move]
    cases hnext : x.ahead id with
    | nil => exact .inl (by simp only [proceed, hnext])
    | cons part parts =>
      have hproceed : x.proceed id =
          { state := x.state.carryOut part, rest := x.leave id parts } := by
        simp only [proceed, hnext]
      refine .inr (.proceeded rfl hnext (by rw [hproceed]) fun id' => ?_)
      rw [hproceed]
      exact x.getD_lookup_leave id parts id'
  | wait ms => exact .inr (.waited ms rfl)

end Interleaving
end FirewallRollout.Rebuild
