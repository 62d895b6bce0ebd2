import FirewallRollout.Api.Handler
import FirewallRollout.Proofs.Rebuild.Limit
import FirewallRollout.Proofs.Rebuild.Selection
import FirewallRollout.Proofs.Rebuild.SingleFlight

/-!
# Requests that are refused

The answer to a request tells what became of the orchestrator. What is answered with an error has
changed nothing, and so has what only reads. A rebuild that is accepted adds its task, and a
cancellation that is accepted changes its task and cancels the token of its worker.
-/
namespace FirewallRollout

theorem Error.le_httpStatus (e : Error) : 400 ≤ e.httpStatus := by
  cases e <;> simp [httpStatus]

/-- The rules of a server make up a rebuild: it is known, and its enabled rules, which compile, can be
counted. -/
structure Inventory.Holdings.Deployable (held : Inventory.Holdings) (server : String)
    (rules : List Rule) : Prop extends held.Enabled server rules where
  known : (held server).isSome
  compiles : ∀ r ∈ rules, ∃ c, r.compile = .ok c
  counted : rules.length < UInt32.size

namespace Rebuild.State

/-- A rebuild of the server is in flight and keeps others from it. -/
def Busy (s : State) (server : String) : Prop :=
  s.settings.allowConcurrent = false ∧ s.registry.inFlight server ≠ []

/-- When a rebuild is accepted. Disabled rules have no say in it. -/
theorem trigger_isOk_iff {s : State} {held : Inventory.Holdings} (hs : s.inventory.Presents held)
    (hwritable : s.registry.isWritable = true) (server : String) (force : Bool) (id : String)
    (now : Int64) :
    (∃ t, (s.trigger server force id now).1 = .ok t) ↔
      s.shuttingDown = false ∧ s.holder? server = none ∧ s.registry.find? id = none ∧
        ∃ rules, held.Deployable server rules := by
  constructor
  · rintro ⟨t, ht⟩
    obtain ⟨script, total, registry, hopen, hfree, hscript, htotal, rfl, hcreate, -⟩ :=
      trigger_ok (Prod.ext ht rfl)
    obtain ⟨rules, henabled, hcompiled, hcount⟩ := exists_enabled_counted hs hscript htotal
    exact ⟨hopen, hfree, (Registry.create_ok hcreate).2.1, rules, henabled,
      isSome_of_scriptFor hs hscript, fun r hr => hcompiled.compile hr, hcount ▸ total.toNat_lt⟩
  · rintro ⟨hopen, hfree, hid, rules, hdeployable⟩
    obtain ⟨script, hscript⟩ := exists_scriptFor hs hdeployable.known
      (fun r hr henabled => hdeployable.compiles r ((hdeployable.mem r).mpr ⟨hr, henabled⟩)) .plain
    obtain ⟨rules', henabled, hcompiled⟩ := exists_enabled hs hscript
    obtain rfl := henabled.unique hdeployable.toEnabled
    have hsize : script.lines.length < UInt32.size := by
      rw [← List.length_map (f := fun line : Script.Line => line.command.text)]
      exact hcompiled.length_eq ▸ hdeployable.counted
    obtain ⟨total, htotal⟩ := Script.exists_total hsize
    exact ⟨_, trigger_accepts hopen hscript htotal hfree hwritable hid force now⟩

/-- The slot of a server is free unless a rebuild in flight keeps others out. -/
theorem holder?_eq_none_iff_not_busy {settings : Settings} {inventory : Inventory}
    {registry : Registry} (hidle : ∀ t ∈ registry.tasks, t.isTerminal = true) {events : List Event}
    {s : State} (hs : s = (initial settings inventory registry).run events) (server : String) :
    s.holder? server = none ↔ ¬ s.Busy server := by
  cases hconcurrent : s.settings.allowConcurrent with
  | true => simp [holder?, Busy, hconcurrent]
  | false =>
    have hsettings : s.settings = settings := by rw [hs]; exact settings_run _ events
    have hexclusive : s.Exclusive := by
      rw [hs]
      exact run_preserves Effect.exclusive
        (exclusive_initial (hsettings ▸ hconcurrent) inventory hidle) events
    rw [hexclusive.holder?_eq_none_iff, Busy, hconcurrent]
    simp

end Rebuild.State

namespace Api
open Rebuild (State)

/-- A request for a rebuild of a server, whatever its body says. -/
structure Request.Rebuilds (r : Request) (server : String) : Prop where
  method : r.method = "POST"
  route : ∃ segment, Route.ofPath? (Route.splitTarget r.target).1 = some (.serverRebuild segment) ∧
    Text.Percent.decode? segment = some server

/-- A request to cancel a task. -/
structure Request.Cancels (r : Request) (id : String) : Prop where
  method : r.method = "POST"
  route : ∃ segment, Route.ofPath? (Route.splitTarget r.target).1 = some (.taskCancel segment) ∧
    Text.Percent.decode? segment = some id

/-- What becomes of the orchestrator with the answer to a request. -/
inductive Answers (s : State) (r : Request) (fresh : String) (now : Int64) : Response → State → Prop
  /-- The orchestrator was not asked to act. -/
  | kept (response : Response) (refused : r.method = "POST" → 400 ≤ response.status)
      (unasked : ∀ server force, r.Rebuilds server → readBody r.body ≠ .ok force) :
    Answers s r fresh now response s
  | rebuild {server : String} {force : Bool} (asked : r.Rebuilds server)
      (body : readBody r.body = .ok force) :
    Answers s r fresh now (.ofExcept 202 ((s.trigger server force fresh now).1.map .task))
      (s.trigger server force fresh now).2
  | cancel {id : String} (asked : r.Cancels id) :
    Answers s r fresh now (.ofExcept 200 ((s.cancel id now).1.map .task)) (s.cancel id now).2

theorem Request.Rebuilds.unique {r : Request} {server server' : String} (h : r.Rebuilds server)
    (h' : r.Rebuilds server') : server' = server := by
  obtain ⟨segment, hroute, hname⟩ := h.route
  obtain ⟨segment', hroute', hname'⟩ := h'.route
  rw [hroute] at hroute'
  obtain rfl := Route.serverRebuild.inj (Option.some.inj hroute')
  exact Option.some.inj (hname'.symm.trans hname)

theorem Request.Cancels.unique {r : Request} {id id' : String} (h : r.Cancels id)
    (h' : r.Cancels id') : id' = id := by
  obtain ⟨segment, hroute, hname⟩ := h.route
  obtain ⟨segment', hroute', hname'⟩ := h'.route
  rw [hroute] at hroute'
  obtain rfl := Route.taskCancel.inj (Option.some.inj hroute')
  exact Option.some.inj (hname'.symm.trans hname)

theorem Request.Rebuilds.not_cancels {r : Request} {server id : String} (h : r.Rebuilds server) :
    ¬ r.Cancels id := by
  intro h'
  obtain ⟨segment, hroute, -⟩ := h.route
  obtain ⟨segment', hroute', -⟩ := h'.route
  rw [hroute] at hroute'
  cases hroute'

theorem readBody_eq_ok_iff {body : List UInt8} {force : Bool} :
    readBody body = .ok force ↔ body.length ≤ maxBodyOctets ∧ forceOf body = .ok force := by
  unfold readBody
  split
  · next hlong => simp [Nat.not_le.mpr hlong]
  · next hshort => cases forceOf body <;> simp [Except.mapError, Nat.not_lt.mp hshort]

theorem le_status_of_readBody {body : List UInt8} {response : Response}
    (h : readBody body = .error response) : 400 ≤ response.status := by
  unfold readBody at h
  split at h
  · rw [← Except.error.inj h]
    decide
  · cases hforce : forceOf body with
    | ok force => simp [hforce, Except.mapError] at h
    | error e =>
      rw [hforce] at h
      exact Except.error.inj h ▸ e.le_httpStatus

theorem nameOf_cases (parameter segment : String) :
    (∃ name, nameOf parameter segment = .ok name ∧ Text.Percent.decode? segment = some name) ∨
      nameOf parameter segment = .error (undecodable parameter) ∧
        Text.Percent.decode? segment = none := by
  unfold nameOf
  cases Text.Percent.decode? segment with
  | none => exact .inr ⟨rfl, rfl⟩
  | some name => exact .inl ⟨name, rfl, rfl⟩

section Acting
variable {s : State} {r : Request} {segment : String} (fresh : String) (now : Int64)
  (method : r.method = "POST")
include method

theorem answers_rebuild
    (route : Route.ofPath? (Route.splitTarget r.target).1 = some (.serverRebuild segment)) :
    Answers s r fresh now (act s (.serverRebuild segment) r.body fresh now).1
      (act s (.serverRebuild segment) r.body fresh now).2 := by
  rcases nameOf_cases "server_id" segment with ⟨server, hname, hdecode⟩ | ⟨hname, hdecode⟩
  · have hasked : r.Rebuilds server := ⟨method, segment, route, hdecode⟩
    cases hforce : readBody r.body with
    | error response =>
      simp only [act, hname, rebuild, hforce]
      exact .kept response (fun _ => le_status_of_readBody hforce) fun _ _ _ hok => by
        rw [hforce] at hok
        cases hok
    | ok force =>
      simp only [act, hname, rebuild, hforce]
      exact .rebuild hasked hforce
  · simp only [act, hname]
    refine .kept (undecodable "server_id") (fun _ => Nat.le_refl 400) fun server _ hasked => ?_
    obtain ⟨segment', hroute', hname'⟩ := hasked.route
    rw [route] at hroute'
    obtain rfl := Route.serverRebuild.inj (Option.some.inj hroute')
    rw [hdecode] at hname'
    cases hname'

theorem answers_cancel
    (route : Route.ofPath? (Route.splitTarget r.target).1 = some (.taskCancel segment)) :
    Answers s r fresh now (act s (.taskCancel segment) r.body fresh now).1
      (act s (.taskCancel segment) r.body fresh now).2 := by
  rcases nameOf_cases "task_id" segment with ⟨id, hname, hdecode⟩ | ⟨hname, hdecode⟩
  · simp only [act, hname]
    exact .cancel ⟨method, segment, route, hdecode⟩
  · simp only [act, hname]
    refine .kept (undecodable "task_id") (fun _ => Nat.le_refl 400) fun server _ hasked => ?_
    obtain ⟨segment', hroute', -⟩ := hasked.route
    rw [route] at hroute'
    cases hroute'

end Acting

/-- Every request is answered in one of these ways. -/
theorem handle_answers (s : State) (r : Request) (fresh : String) (now : Int64) :
    Answers s r fresh now (handle s r fresh now).1 (handle s r fresh now).2 := by
  have hother : ∀ {method : String} (response : Response), r.method = method → method ≠ "POST" →
      Answers s r fresh now response s := fun response hmethod hne =>
    .kept response (fun hpost => absurd (hmethod.symm.trans hpost) hne) fun _ _ hasked =>
      absurd (hmethod.symm.trans hasked.method) hne
  unfold handle
  dsimp only
  split
  · next hmethod => exact hother _ hmethod (by decide)
  · next hroute _ =>
    refine .kept { status := 404, payload := .nothing } (fun _ => by simp) fun _ _ hasked => ?_
    obtain ⟨segment, hroute', -⟩ := hasked.route
    rw [hroute] at hroute'
    cases hroute'
  next route hroute _ =>
  split
  · next hmethod => exact hother _ hmethod (by decide)
  · next hmethod => exact hother _ hmethod (by decide)
  · next haccess hmethod =>
    cases route with
    | serverRebuild segment => exact answers_rebuild fresh now hmethod hroute
    | taskCancel segment => exact answers_cancel fresh now hmethod hroute
    | _ => cases haccess
  · next hacting =>
    refine .kept { status := 405, payload := .nothing } (fun _ => by simp) fun _ _ hasked => ?_
    obtain ⟨segment, hroute', -⟩ := hasked.route
    rw [hroute] at hroute'
    obtain rfl := Option.some.inj hroute'
    exact absurd hasked.method (hacting rfl)

namespace Answers
variable {s s' : State} {r : Request} {fresh : String} {now : Int64} {response : Response}
  (h : Answers s r fresh now response s')
include h

/-- What is answered with an error has changed nothing but the order of creation. -/
theorem kept_of_error (herror : 400 ≤ response.status) :
    s' = { s with registry := { s.registry with nextSeq := s'.registry.nextSeq } } := by
  cases h with
  | kept => rfl
  | @rebuild server force asked body =>
    cases hresult : s.trigger server force fresh now with
    | mk result s' =>
      rw [hresult] at herror
      cases result with
      | ok t => simp [Except.map, Response.ofExcept] at herror
      | error e => rcases State.trigger_error hresult with rfl | rfl <;> rfl
  | @cancel id asked =>
    cases hresult : s.cancel id now with
    | mk result s' =>
      rw [hresult] at herror
      cases result with
      | ok t => simp [Except.map, Response.ofExcept] at herror
      | error e =>
        obtain rfl := State.cancel_error hresult
        rfl

theorem kept_of_method (hmethod : r.method ≠ "POST") : s' = s := by
  cases h with
  | kept => rfl
  | rebuild asked body => exact absurd asked.method hmethod
  | cancel asked => exact absurd asked.method hmethod

/-- A rebuild is refused with an error, or it is accepted and answered with its task. -/
theorem rebuild_cases {server : String} (hasked : r.Rebuilds server) :
    (400 ≤ response.status ∧ ∀ force, readBody r.body = .ok force →
      ∀ t, (s.trigger server force fresh now).1 ≠ .ok t) ∨
    ∃ force t, readBody r.body = .ok force ∧ s.trigger server force fresh now = (.ok t, s') ∧
      response = { status := 202, payload := .task t } := by
  cases h with
  | kept _ refused unasked =>
    exact .inl ⟨refused hasked.method, fun force hforce => absurd hforce (unasked server force hasked)⟩
  | @rebuild server' force asked body =>
    obtain rfl := hasked.unique asked
    cases hresult : s.trigger server' force fresh now with
    | mk result s' =>
      cases result with
      | ok t => exact .inr ⟨force, t, body, hresult, rfl⟩
      | error e =>
        refine .inl ⟨e.le_httpStatus, fun force' hforce t => ?_⟩
        obtain rfl := Except.ok.inj (body.symm.trans hforce)
        rw [hresult]
        exact nofun
  | cancel asked => exact absurd asked hasked.not_cancels

/-- A cancellation is refused with an error, or it is accepted and answered with the new task. -/
theorem cancel_cases {id : String} (hasked : r.Cancels id) :
    400 ≤ response.status ∨
    ∃ u, s.cancel id now = (.ok u, s') ∧ response = { status := 200, payload := .task u } := by
  cases h with
  | kept _ refused unasked => exact .inl (refused hasked.method)
  | rebuild asked body => exact absurd hasked asked.not_cancels
  | @cancel id' asked =>
    obtain rfl := hasked.unique asked
    cases hresult : s.cancel id' now with
    | mk result s' =>
      cases result with
      | ok u => exact .inr ⟨u, rfl, rfl⟩
      | error e => exact .inl e.le_httpStatus

end Answers

end Api

namespace Rebuild.State

/-- A cancellation that is accepted changes its task, cancels the token of the task's worker, and leaves
all else. -/
theorem frame_of_cancel {s s' : State} {id : String} {now : Int64} {u : Task}
    (h : s.cancel id now = (.ok u, s')) :
    (∃ t, s.registry.get id = .ok t ∧ t.isTerminal = false ∧
      u = t.abandon Task.cancelledMessage now) ∧
    (∀ id', s'.registry.get id' = if id' = id then .ok u else s.registry.get id') ∧
    s'.registry.size = s.registry.size ∧
    s'.tokens = s.tokens.map (fun token => if token.1 == id then (token.1, true) else token) ∧
    s'.leases = s.leases ∧ s'.fingerprints = s.fingerprints ∧ s'.inventory = s.inventory := by
  obtain ⟨e, he, hactive, rfl, rfl⟩ := cancel_ok h
  refine ⟨⟨e.task, Registry.get_eq_ok_iff.mpr ⟨e, he, rfl⟩, hactive, rfl⟩, fun id' => ?_, ?_, ?_,
    rfl, rfl, rfl⟩
  · rw [registry_withWorker, Registry.get,
      Registry.find?_amend (t := e.task.abandon Task.cancelledMessage now) he rfl]
    by_cases hid : id' = id
    · rw [if_pos hid, if_pos hid]
    · rw [if_neg hid, if_neg hid, Registry.get]
  · rw [registry_withWorker, Registry.size, Registry.amend]
    split
    · rfl
    · rw [Registry.store, List.length_map]
      rfl
  · rw [tokens, tokens, withWorker, List.map_map, List.map_map]
    apply List.map_congr_left
    intro w _
    simp only [Function.comp]
    split <;> rfl

end Rebuild.State

namespace Api
open Rebuild (State)

/-- In every state of a run whose tasks are kept in memory: what is answered with an error changes
nothing, and what is not posted neither. A rebuild is accepted or answered with an error; it is
accepted exactly under a free identifier, with a body that is not too long and can be read, while no
shutdown is running, for a server that is not busy, is known and has enabled rules that compile and can
be counted; and then it adds the pending task that it is answered with. A cancellation that is accepted
changes its task and the token of the task's worker, and nothing else. -/
theorem refused_requests_change_nothing (settings : Rebuild.Settings) (inventory : Inventory)
    (before : List Rebuild.Event) {s : State}
    (hs : s = (State.initial settings inventory .empty).run before) (r : Request) (fresh : String)
    (now : Int64) {response : Response} {s' : State} (h : handle s r fresh now = (response, s')) :
    (400 ≤ response.status →
      s' = { s with registry := { s.registry with nextSeq := s'.registry.nextSeq } }) ∧
    (r.method ≠ "POST" → s' = s) ∧
    (∀ edits server, s.inventory = .ofEdits edits → r.Rebuilds server →
      (response.status = 202 ∨ 400 ≤ response.status) ∧
      (response.status = 202 ↔
        s.shuttingDown = false ∧ ¬ s.Busy server ∧ s.registry.find? fresh = none ∧
          r.body.length ≤ maxBodyOctets ∧ (∃ force, forceOf r.body = .ok force) ∧
          ∃ rules, (Inventory.Holdings.ofEdits edits).Deployable server rules) ∧
      (response.status = 202 → ∃ t rules, response.payload = .task t ∧ t.status = .pending ∧
        (Inventory.Holdings.ofEdits edits).Enabled server rules ∧ t.total.toNat = rules.length ∧
        s.registry.find? t.id = none ∧
        s'.registry.entries = s.registry.entries ++ [{ seq := s.registry.nextSeq, task := t }])) ∧
    ∀ id, r.Cancels id →
      (response.status = 200 ∨ 400 ≤ response.status) ∧
      (response.status = 200 → ∃ u, response.payload = .task u ∧
        (∃ t, s.registry.get id = .ok t ∧ t.isTerminal = false ∧
          u = t.abandon Task.cancelledMessage now) ∧
        (∀ id', s'.registry.get id' = if id' = id then .ok u else s.registry.get id') ∧
        s'.registry.size = s.registry.size ∧
        s'.tokens = s.tokens.map (fun token => if token.1 == id then (token.1, true) else token) ∧
        s'.leases = s.leases ∧ s'.fingerprints = s.fingerprints ∧ s'.inventory = s.inventory) := by
  have hanswers : Answers s r fresh now response s' := by
    have hall := handle_answers s r fresh now
    rwa [h] at hall
  have hwritable : s.registry.isWritable = true := by
    rw [hs]
    exact State.run_preserves (P := fun s => s.registry.isWritable = true)
      (fun heffect hr => heffect.isWritable_eq.trans hr) rfl before
  refine ⟨hanswers.kept_of_error, hanswers.kept_of_method, fun edits server hedits hasked => ?_,
    fun id hasked => ?_⟩
  · have hheld : s.inventory.Presents (Inventory.Holdings.ofEdits edits) :=
      hedits ▸ Inventory.presents_ofEdits edits
    have hfree := State.holder?_eq_none_iff_not_busy (fun t ht => by cases ht) hs server
    rcases hanswers.rebuild_cases hasked with ⟨hstatus, hrefused⟩ | ⟨force, t, hforce, hresult, rfl⟩
    · have hother : response.status ≠ 202 := by omega
      refine ⟨.inr hstatus, ⟨fun hok => absurd hok hother, ?_⟩, fun hok => absurd hok hother⟩
      rintro ⟨hopen, hidle, hid, hshort, ⟨force, hforce⟩, hrules⟩
      obtain ⟨t, ht⟩ := (State.trigger_isOk_iff hheld hwritable server force fresh now).mpr
        ⟨hopen, hfree.mpr hidle, hid, hrules⟩
      exact absurd ht (hrefused force (readBody_eq_ok_iff.mpr ⟨hshort, hforce⟩) t)
    · obtain ⟨hopen, hslot, hid, hrules⟩ :=
        (State.trigger_isOk_iff hheld hwritable server force fresh now).mp ⟨t, by rw [hresult]⟩
      obtain ⟨hshort, hforce⟩ := readBody_eq_ok_iff.mp hforce
      refine ⟨.inl rfl, ⟨fun _ => ⟨hopen, hfree.mp hslot, hid, hshort, ⟨force, hforce⟩, hrules⟩,
        fun _ => rfl⟩, fun _ => ?_⟩
      obtain ⟨script, total, registry, -, -, hscript, htotal, rfl, hcreate, rfl⟩ :=
        State.trigger_ok hresult
      obtain ⟨rules, henabled, -, hcount⟩ := State.exists_enabled_counted hheld hscript htotal
      exact ⟨_, rules, rfl, rfl, henabled, hcount, hid, (Registry.create_ok hcreate).2.2.2⟩
  · rcases hanswers.cancel_cases hasked with hstatus | ⟨u, hresult, rfl⟩
    · exact ⟨.inr hstatus, fun hok => by omega⟩
    · exact ⟨.inl rfl, fun _ => ⟨u, rfl, State.frame_of_cancel hresult⟩⟩

/-- A disabled rule without a command does not keep a rebuild out, and the rebuild then keeps out
another one. -/
theorem refused_requests_change_nothing_while_busy :
    let off : Rule :=
      { id := .number 1, server := "web", chain := "INPUT", action := "DORP", enabled := false }
    let s := State.initial {} (.ofEdits [.upsert off]) .empty
    let busy := s.run [.trigger "web" true "a" 0]
    let r : Request := { method := "POST", target := "/servers/web/rebuild" }
    (handle s r "a" 0).1.status = 202 ∧ 400 ≤ (handle busy r "b" 1).1.status ∧
      (handle busy r "b" 1).2 = { busy with
        registry := { busy.registry with nextSeq := (handle busy r "b" 1).2.registry.nextSeq } } := by
  intro off s busy r
  have hasked : r.Rebuilds "web" := by
    have hpath : (Route.splitTarget r.target).1 = "/servers/web/rebuild" := by decide +kernel
    have hsplit : "/servers/web/rebuild".splitOn "/" = ["", "servers", "web", "rebuild"] := by
      simp +decide [String.splitOn, String.splitOnAux]
    refine ⟨rfl, "web", ?_, by decide +kernel⟩
    rw [hpath, Route.ofPath?, hsplit]
    rfl
  have hdeployable : (Inventory.Holdings.ofEdits [.upsert off]).Deployable "web" [] := by
    have hheld : ∀ id, (Inventory.Holdings.ofEdits [.upsert off]).under "web" id =
        if id = .number 1 then some off else none := by
      intro id
      simp [Inventory.Holdings.ofEdits, Inventory.Holdings.edited, Inventory.Holdings.under,
        Function.update_apply, off]
    refine ⟨⟨.nil, fun x => ⟨fun hx => (List.not_mem_nil hx).elim, fun hx => ?_⟩⟩,
      by decide +kernel, fun x hx => (List.not_mem_nil hx).elim, by decide +kernel⟩
    obtain ⟨hx, henabled⟩ := hx
    rw [hheld] at hx
    split at hx
    · rw [← Option.some.inj hx] at henabled
      cases henabled
    · cases hx
  have hidle : ¬ s.Busy "web" := fun hflight => hflight.2 (by decide +kernel)
  have hbusy : busy.Busy "web" := ⟨by decide +kernel, by decide +kernel⟩
  obtain ⟨-, -, haccepted, -⟩ :=
    refused_requests_change_nothing {} (.ofEdits [.upsert off]) [] (s := s) rfl r "a" 0 rfl
  obtain ⟨hkept, -, hrefused, -⟩ := refused_requests_change_nothing {} (.ofEdits [.upsert off])
    [.trigger "web" true "a" 0] (s := busy) rfl r "b" 1 rfl
  obtain ⟨hanswer, hiff, -⟩ := hrefused [.upsert off] "web" (by decide +kernel) hasked
  have herror := hanswer.resolve_left fun hok => (hiff.mp hok).2.1 hbusy
  exact ⟨(haccepted [.upsert off] "web" rfl hasked).2.1.mpr
    ⟨rfl, hidle, rfl, by decide, ⟨false, by decide +kernel⟩, [], hdeployable⟩, herror, hkept herror⟩
end Api
end FirewallRollout
