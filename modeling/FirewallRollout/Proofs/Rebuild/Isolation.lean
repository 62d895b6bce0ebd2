import FirewallRollout.Proofs.Rebuild.Acts
import FirewallRollout.Proofs.Registry.WriteThrough

/-!
# What tasks leave to each other

All tasks share the tables of the orchestrator. A step of one task leaves the records and the tokens of
all others as they are, and the leases and the fingerprints of all servers but its own. Tokens hang on
that of the service: a cancellation goes down from there, and not up or across.
-/
namespace FirewallRollout

namespace Registry

/-- A task that is written leaves the rows of all others. -/
theorem row?_persist {r : Registry} {seq : UInt64} {t : Task} {database : Option Storage.Database}
    (h : r.persist seq t = .ok database) {id : String} (hid : id ≠ t.id) :
    database.bind (·.row? id) = r.row? id := by
  unfold persist at h
  cases hdb : r.database with
  | none =>
    rw [hdb] at h
    obtain rfl := Except.ok.inj h
    rw [row?, hdb]
  | some db =>
    rw [hdb] at h
    obtain ⟨db', hwrite, rfl⟩ := map_ok h
    have hkey : (Storage.Row.ofTask seq t).taskId = .text t.id := rfl
    rw [row?, hdb, Option.bind_some, Option.bind_some, Storage.Database.row?_write hkey hwrite,
      if_neg hid]

theorem row?_create {r r' : Registry} {t u : Task} (h : r.create t = (.ok u, r')) {id : String}
    (hid : id ≠ t.id) : r'.row? id = r.row? id := by
  unfold create at h
  split at h
  · simp at h
  · split at h
    · simp at h
    · next database hwrite =>
      simp only [Prod.mk.injEq, Except.ok.injEq] at h
      obtain ⟨-, rfl⟩ := h
      exact row?_persist hwrite hid

theorem row?_amend (r : Registry) (e : Entry) {t : Task} {id : String} (hid : id ≠ t.id) :
    (r.amend e t).row? id = r.row? id := by
  unfold amend
  split
  · rfl
  · cases hwrite : r.persist e.seq t with
    | ok database =>
      rw [← row?_persist hwrite hid, row?, store, hwrite]
    | error error => rw [row?, store, hwrite, row?]

end Registry

namespace Rebuild

/-- The task that a step belongs to. A shutdown, a change of the rules and the passing of time belong
to none. -/
def Event.task? : Event → Option String
  | .trigger _ _ id _ | .cancel id _ | .start id | .report id _ | .revoke id | .finish id _
  | .expire id | .notice id | .abandon id | .settle id _ | .release id => some id
  | .shutDown | .edit _ | .pass _ => none

/-- The cancellation tokens: one of the service, and under it one for each task. -/
inductive Token where
  | service
  | task (id : String)
  deriving DecidableEq

/-- The tokens that are cancelled with a token: itself, and those under it. -/
inductive Token.Reaches : Token → Token → Prop
  | self (token : Token) : Reaches token token
  | child (id : String) : Reaches .service (.task id)

/-- The token that a step may cancel. -/
def Event.cancels? : Event → Option Token
  | .shutDown => some .service
  | .cancel id _ | .revoke id | .expire id => some (.task id)
  | _ => none

namespace State

/-- Whether a token is cancelled, if it is there. -/
def cancelled? (s : State) : Token → Option Bool
  | .service => some s.shuttingDown
  | .task id => s.tokens.lookup id

/-- The server of a task. -/
def server? (s : State) (id : String) : Option String := (s.registry.find? id).map (·.task.server)

/-- The server of the task that a step belongs to. -/
def serverOf? (s : State) : Event → Option String
  | .trigger server _ _ _ => some server
  | e => e.task?.bind s.server?

/-- The server of a worker is that of its task. -/
theorem Coherent.server?_of_worker? {s : State} (hs : s.Coherent) {id : String} {w : Worker}
    (hw : s.worker? id = some w) : s.server? id = some w.task.server := by
  obtain ⟨e, he, hsame, -⟩ := (hs.fits hw).registered
  rw [id_of_worker? hw] at he
  rw [server?, he, Option.map_some, hsame.2.1]

/-- What is done for one task of a server, and not for another task or server. -/
structure Spares (id : String) (own? : Option String) (s s' : State) : Prop where
  record : ∀ {other}, other ≠ id → s'.registry.find? other = s.registry.find? other
  row : ∀ {other}, other ≠ id → s'.registry.row? other = s.registry.row? other
  worker : ∀ {other}, other ≠ id → s'.worker? other = s.worker? other
  shuttingDown : s'.shuttingDown = s.shuttingDown
  lease : ∀ {server}, own? ≠ some server → s'.leases.lookup server = s.leases.lookup server
  fingerprint : ∀ {server}, own? ≠ some server →
    s'.fingerprints.lookup server = s.fingerprints.lookup server

theorem ne_of_own {own? : Option String} {own server : String} (hown : own? = some own)
    (hother : own? ≠ some server) : server ≠ own := by
  rintro rfl
  exact hother hown

section Spares
variable {s s₁ : State} {id : String} {own? : Option String}

theorem Spares.refl (id : String) (own? : Option String) (s : State) : Spares id own? s s where
  record _ := rfl
  row _ := rfl
  worker _ := rfl
  shuttingDown := rfl
  lease _ := rfl
  fingerprint _ := rfl

/-- A change to the worker of the task. -/
theorem Spares.withWorker (h : Spares id own? s s₁) {change : Worker → Worker}
    (hkeep : ∀ w, (change w).task = w.task) : Spares id own? s (s₁.withWorker id change) :=
  { h with
    worker := fun hother => by rw [worker?_withWorker _ _ _ hkeep, if_neg hother, h.worker hother] }

/-- A change to the record of the task. -/
theorem spares_amend {e : Registry.Entry} {t : Task} (he : s.registry.find? id = some e)
    (ht : t.id = e.task.id) : Spares id own? s { s with registry := s.registry.amend e t } :=
  { Spares.refl id own? s with
    record := fun hother => (Registry.find?_amend he ht _).trans (if_neg hother)
    row := fun hother => by
      refine s.registry.row?_amend e ?_
      rwa [ht, Registry.id_of_find? he] }

theorem spares_withTask? {change : Task → Except Task.Refusal Unit × Task}
    (h : s.withTask? id change = some s₁) (hkeep : ∀ {t u}, change t = (.ok (), u) → u.id = t.id) :
    Spares id own? s s₁ := by
  obtain ⟨e, t, he, ht, rfl⟩ := withTask?_eq_some_iff.mp h
  exact spares_amend he (hkeep ht)

end Spares

section Steps
variable {s : State} (hs : s.Coherent) (id : String)

theorem spares_trigger (s : State) (server : String) (force : Bool) (id : String) (now : Int64) :
    Spares id (some server) s (s.trigger server force id now).2 := by
  cases h : s.trigger server force id now with
  | mk result s' =>
    cases result with
    | error error =>
      rcases trigger_error h with rfl | rfl
      · exact .refl id (some server) _
      · exact { Spares.refl id (some server) _ with }
    | ok t =>
      obtain ⟨script, total, registry, -, -, -, -, rfl, hcreate, rfl⟩ := trigger_ok h
      refine { Spares.refl id (some server) s with record := ?_, row := ?_, worker := ?_, lease := ?_ }
      · intro other hother
        exact (Registry.find?_create hcreate other).trans (if_neg hother)
      · intro other hother
        exact Registry.row?_create hcreate hother
      · intro other hother
        rw [worker?_append (s := s) rfl]
        change (s.worker? other).or (if other = id then _ else none) = _
        rw [if_neg hother, Option.or_none]
      · intro other hother
        dsimp only
        split
        · rfl
        · rw [Assoc.lookup_put, if_neg (ne_of_own rfl hother)]

theorem spares_cancel (s : State) (id : String) (own? : Option String) (now : Int64) :
    Spares id own? s (s.step (.cancel id now)) := by
  rcases s.cancel_cases id now with hsame | ⟨e, he, -, hs'⟩
  · rw [hsame]
    exact .refl id own? s
  · rw [hs']
    exact (spares_amend (t := e.task.abandon Task.cancelledMessage now) he rfl).withWorker fun _ => rfl

theorem spares_report (s : State) (id : String) (own? : Option String) (n : UInt32) :
    Spares id own? s (s.report id n) := by
  unfold report
  split
  · exact .refl id own? s
  cases hsome : s.withTask? id fun t => (.ok (), t.progress n) with
  | none => exact .refl id own? s
  | some s₁ =>
    refine spares_withTask? hsome fun {t u} ht => ?_
    obtain rfl := (Prod.mk.inj ht).2
    exact (Task.progress_sameRebuild t n).1

theorem spares_revoke (s : State) (id : String) (own? : Option String) :
    Spares id own? s (s.revoke id) := by
  unfold revoke
  split
  · exact .refl id own? s
  · exact (Spares.refl id own? s).withWorker fun _ => rfl

theorem spares_finish (s : State) (id : String) (own? : Option String) (result : Executor.Result) :
    Spares id own? s (s.finish id result) := by
  have hresult : Spares id own? s (s.withResult id result) := { Spares.refl id own? s with }
  unfold finish
  split
  · exact .refl id own? s
  split
  · exact hresult.withWorker fun _ => rfl
  · exact hresult.withWorker fun _ => rfl
  · exact .refl id own? s

theorem spares_expire (s : State) (id : String) (own? : Option String) :
    Spares id own? s (s.expire id) := by
  unfold expire
  split
  · split
    · exact (Spares.refl id own? s).withWorker fun _ => rfl
    · exact .refl id own? s
  · exact .refl id own? s

theorem spares_notice (s : State) (id : String) (own? : Option String) :
    Spares id own? s (s.notice id) := by
  unfold notice
  split
  · exact (Spares.refl id own? s).withWorker fun _ => rfl
  · exact .refl id own? s

theorem spares_abandon (s : State) (id : String) (own? : Option String) :
    Spares id own? s (s.abandon id) := by
  unfold abandon
  split
  · split
    · exact (Spares.refl id own? s).withWorker fun _ => rfl
    · exact .refl id own? s
  · exact .refl id own? s

include hs

theorem spares_start : Spares id (s.server? id) s (s.start id) := by
  rw [start_eq]
  split
  · exact .refl id _ s
  next w hw =>
  have hserver := hs.server?_of_worker? (workerIn?_eq_some_iff.mp hw).1
  split
  · exact (Spares.refl id _ s).withWorker fun _ => rfl
  next s₁ hsome =>
  have hstarted : Spares id (s.server? id) s s₁ := by
    refine spares_withTask? hsome fun {t u} ht => ?_
    obtain ⟨-, rfl⟩ := Task.start_ok ht
    rfl
  split
  · exact hstarted.withWorker fun _ => rfl
  · have hcalled : Spares id (s.server? id) s { s₁ with
        fingerprints := Assoc.erase s₁.fingerprints w.task.server
        calls := s₁.calls ++ [Call.mk w.plan none] } := by
      refine { hstarted with fingerprint := fun {server} hother => ?_ }
      rw [Assoc.lookup_erase, if_neg (ne_of_own hserver hother), hstarted.fingerprint hother]
    exact hcalled.withWorker fun _ => rfl

theorem spares_settle (now : Int64) : Spares id (s.server? id) s (s.settle id now) := by
  rw [settle_eq]
  split
  · next task script unchanged cancelled outcome hfound =>
    have hserver := hs.server?_of_worker? hfound
    split
    · exact (Spares.refl id _ s).withWorker fun _ => rfl
    next s₁ hsome =>
    have hsettled : Spares id (s.server? id) s s₁ :=
      spares_withTask? hsome fun ht => (settleTask_ok ht).2.2.2.1
    have hremembered : Spares id (s.server? id) s { s₁ with
        fingerprints := if outcome = .applied
          then Assoc.put s₁.fingerprints task.server script.fingerprint else s₁.fingerprints } := by
      refine { hsettled with fingerprint := fun {server} hother => ?_ }
      dsimp only
      split
      · rw [Assoc.lookup_put, if_neg (ne_of_own hserver hother), hsettled.fingerprint hother]
      · exact hsettled.fingerprint hother
    exact hremembered.withWorker fun _ => rfl
  · exact .refl id _ s

theorem spares_release : Spares id (s.server? id) s (s.release id) := by
  unfold release
  split
  · exact .refl id _ s
  next w hw =>
  have hserver := hs.server?_of_worker? (workerIn?_eq_some_iff.mp hw).1
  refine { Spares.refl id _ s with worker := ?_, lease := ?_ }
  · intro other hother
    rw [worker?_filter (s := s) rfl, if_neg hother]
  · intro server hother
    dsimp only
    split
    · rw [Assoc.lookup_erase, if_neg (ne_of_own hserver hother)]
    · rfl

/-- A step spares all but its task and the server of this task. -/
theorem spares_step {e : Event} (he : e.task? = some id) : Spares id (s.serverOf? e) s (s.step e) := by
  cases e with
  | trigger server force id' now =>
    obtain rfl := Option.some.inj he
    exact s.spares_trigger server force id' now
  | cancel id' now =>
    obtain rfl := Option.some.inj he
    exact s.spares_cancel id' _ now
  | shutDown => cases he
  | edit inventory => cases he
  | start id' =>
    obtain rfl := Option.some.inj he
    exact spares_start hs id'
  | report id' n =>
    obtain rfl := Option.some.inj he
    exact s.spares_report id' _ n
  | revoke id' =>
    obtain rfl := Option.some.inj he
    exact s.spares_revoke id' _
  | finish id' result =>
    obtain rfl := Option.some.inj he
    exact s.spares_finish id' _ result
  | expire id' =>
    obtain rfl := Option.some.inj he
    exact s.spares_expire id' _
  | notice id' =>
    obtain rfl := Option.some.inj he
    exact s.spares_notice id' _
  | abandon id' =>
    obtain rfl := Option.some.inj he
    exact s.spares_abandon id' _
  | settle id' now =>
    obtain rfl := Option.some.inj he
    exact spares_settle hs id' now
  | release id' =>
    obtain rfl := Option.some.inj he
    exact spares_release hs id'
  | pass ms => cases he

end Steps

theorem Spares.cancelled?_eq {s s' : State} {id : String} {own? : Option String}
    (h : Spares id own? s s') {token : Token} (hother : token ≠ .task id) :
    s'.cancelled? token = s.cancelled? token := by
  cases token with
  | service => exact congrArg some h.shuttingDown
  | task other =>
    have hne : other ≠ id := fun heq => hother (congrArg Token.task heq)
    rw [cancelled?, cancelled?, lookup_tokens, lookup_tokens, h.worker hne]

/-- Only a shutdown cancels the token of the service. -/
theorem eq_shutDown {s : State} (hs : s.Coherent) {e : Event} (hopen : s.shuttingDown = false)
    (hdown : (s.step e).shuttingDown = true) : e = .shutDown := by
  have hchanged : (s.step e).shuttingDown ≠ s.shuttingDown := by rw [hopen, hdown]; decide
  cases htask : e.task? with
  | some id => exact absurd (spares_step hs id htask).shuttingDown hchanged
  | none =>
    cases e with
    | shutDown => rfl
    | edit inventory => exact absurd rfl hchanged
    | pass ms =>
      rw [step, pass] at hchanged
      split at hchanged <;> exact absurd rfl hchanged
    | _ => cases htask

/-- A token that a step finds in force and leaves cancelled is one that the step reaches. -/
theorem reaches_of_cancelled? {s : State} (hs : s.Coherent) {e : Event} {token : Token}
    (hbefore : s.cancelled? token = some false) (hafter : (s.step e).cancelled? token = some true) :
    ∃ cause, e.cancels? = some cause ∧ cause.Reaches token := by
  cases token with
  | service =>
    obtain rfl := eq_shutDown hs (Option.some.inj hbefore) (Option.some.inj hafter)
    exact ⟨.service, rfl, .self .service⟩
  | task id =>
    rw [cancelled?, lookup_tokens, Option.map_eq_some_iff] at hbefore hafter
    obtain ⟨w, hw, hlive⟩ := hbefore
    obtain ⟨w', hw', hcancelled⟩ := hafter
    obtain rfl := id_of_worker? hw
    have hkept : w'.cancelled ≠ w.cancelled := by rw [hlive, hcancelled]; decide
    cases acts_of_step hw hw' with
    | idle e => exact absurd rfl hkept
    | cancelled ended => exact ⟨_, rfl, .self _⟩
    | shutDown => exact ⟨_, rfl, .child _⟩
    | revoked => exact ⟨_, rfl, .self _⟩
    | winds e limit phase due =>
      rcases due with ⟨rfl, -⟩ | hdue
      · exact ⟨_, rfl, .self _⟩
      · rw [hdue] at hlive
        cases hlive
    | skips => exact absurd rfl hkept
    | calls queued begins => exact absurd rfl hkept
    | returns result phase => exact absurd rfl hkept
    | stops e phase => exact absurd rfl hkept
    | leaves e => exact absurd rfl hkept

/-- In every state of a run: a step of one task leaves the records, the rows and the tokens of all other
tasks, the token of the service, and the leases and the fingerprints of all servers but its own. A token
is cancelled only by a step that cancels it or the token that it hangs on. -/
theorem tasks_apart (settings : Settings) (inventory : Inventory) (registry : Registry)
    (events : List Event) {s : State} (hs : s = (initial settings inventory registry).run events)
    (e : Event) :
    (∀ id, e.task? = some id →
      (∀ other, other ≠ id → (s.step e).registry.find? other = s.registry.find? other ∧
        (s.step e).registry.row? other = s.registry.row? other) ∧
      (∀ token, token ≠ .task id → (s.step e).cancelled? token = s.cancelled? token) ∧
      ∀ server, s.serverOf? e ≠ some server →
        (s.step e).leases.lookup server = s.leases.lookup server ∧
        (s.step e).fingerprints.lookup server = s.fingerprints.lookup server) ∧
    ∀ token, s.cancelled? token = some false → (s.step e).cancelled? token = some true →
      ∃ cause, e.cancels? = some cause ∧ cause.Reaches token := by
  have hcoherent : s.Coherent := hs ▸ (coherent_initial settings inventory registry).run events
  refine ⟨fun id hid => ?_, fun token => reaches_of_cancelled? hcoherent⟩
  have hspares := spares_step hcoherent id hid
  refine ⟨fun other hother => ⟨hspares.record hother, hspares.row hother⟩,
    fun token htoken => hspares.cancelled?_eq htoken,
    fun server hserver => ⟨hspares.lease hserver, hspares.fingerprint hserver⟩⟩

/-- A task of another server is cancelled while one task has taken over the slot of another that is
still in its call. -/
theorem tasks_apart_takeover :
    let s := (initial {} { shelves := [("web", []), ("db", [])] } {}).run
      [.trigger "web" false "a" 0, .start "a", .trigger "db" false "c" 0, .cancel "a" 1,
        .trigger "web" false "b" 2]
    let s' := s.step (.cancel "c" 3)
    s.leases.lookup "web" = some "b" ∧ s.cancelled? (.task "a") = some true ∧
      s.cancelled? (.task "b") = some false ∧ s.cancelled? (.task "c") = some false ∧
      s'.cancelled? (.task "c") = some true ∧
      s'.registry.find? "b" = s.registry.find? "b" ∧ s'.cancelled? (.task "b") = some false ∧
      s'.cancelled? .service = s.cancelled? .service ∧ s'.leases.lookup "web" = some "b" ∧
      ∃ cause, (Event.cancel "c" 3).cancels? = some cause ∧ cause.Reaches (.task "c") := by
  intro s s'
  obtain ⟨hapart, hreaches⟩ := tasks_apart {} { shelves := [("web", []), ("db", [])] } {}
    [.trigger "web" false "a" 0, .start "a", .trigger "db" false "c" 0, .cancel "a" 1,
      .trigger "web" false "b" 2] (s := s) rfl (.cancel "c" 3)
  obtain ⟨hrecord, htoken, hserver⟩ := hapart "c" rfl
  have hlease : s.leases.lookup "web" = some "b" := by decide +kernel
  have hb : s.cancelled? (.task "b") = some false := by decide +kernel
  have hc : s.cancelled? (.task "c") = some false := by decide +kernel
  have hc' : s'.cancelled? (.task "c") = some true := by decide +kernel
  have hweb : s.serverOf? (.cancel "c" 3) ≠ some "web" := by decide +kernel
  refine ⟨hlease, by decide +kernel, hb, hc, hc', (hrecord "b" (by decide)).1,
    (htoken (.task "b") (by decide)).trans hb, htoken .service (by decide),
    (hserver "web" hweb).1.trans hlease, hreaches (.task "c") hc hc'⟩

end State
end Rebuild
end FirewallRollout
