import FirewallRollout.Proofs.Rebuild.TaskLife
import FirewallRollout.Proofs.Registry.Active

/-!
# Single flight

Unless rebuilds may be concurrent, a server has one task in flight at most, and the server's lease
names it. Workers whose task has ended take no part in this: they neither keep a new task out nor
take its lease away when they let go.
-/
namespace FirewallRollout.Rebuild

/-- Every task in flight holds the slot of its server, and a slot is held by a task of its server. -/
structure State.Exclusive (s : State) : Prop where
  coherent : s.Coherent
  sequential : s.settings.allowConcurrent = false
  distinct : s.registry.Distinct
  leased : ∀ e ∈ s.registry.entries, e.task.isTerminal = false →
    s.leases.lookup e.task.server = some e.task.id
  held : ∀ {server id}, s.leases.lookup server = some id →
    ∃ e, s.registry.find? id = some e ∧ e.task.server = server

namespace State

theorem exclusive_initial {settings : Settings} (hsequential : settings.allowConcurrent = false)
    (inventory : Inventory) {registry : Registry}
    (hidle : ∀ t ∈ registry.tasks, t.isTerminal = true) :
    (initial settings inventory registry).Exclusive where
  coherent := coherent_initial settings inventory registry
  sequential := hsequential
  distinct := Registry.distinct_of_isTerminal hidle
  leased e he hactive := by
    rw [hidle e.task (List.mem_map_of_mem he)] at hactive
    cases hactive
  held h := by cases h

/-- A change to one task leaves the leases in order. -/
theorem Exclusive.amend {s s' : State} (hs : s.Exclusive) (h : Effect s s') {id : String}
    {e : Registry.Entry} {t : Task} (hentry : s.registry.find? id = some e)
    (hfollows : e.task.Follows t) (hregistry : s'.registry = s.registry.amend e t)
    (hleases : s'.leases = s.leases) : s'.Exclusive where
  coherent := h.coherent hs.coherent
  sequential := by rw [h.settings_eq, hs.sequential]
  distinct := by
    rw [hregistry]
    exact hs.distinct.amend hentry hfollows.same.1 hfollows.frozen
  leased x hx hactive := by
    rw [hregistry] at hx
    rw [hleases]
    rcases Registry.mem_amend hs.distinct hentry hfollows.frozen hx with rfl | ⟨hx, -⟩
    · have hstill : e.task.isTerminal = false := hfollows.isTerminal_eq_false hactive
      rw [hfollows.same.1, hfollows.same.2.1]
      exact hs.leased e (Registry.mem_of_find? hentry) hstill
    · exact hs.leased x hx hactive
  held {server id'} hlease := by
    rw [hleases] at hlease
    obtain ⟨d, hd, hserver⟩ := hs.held hlease
    obtain ⟨d', hd', hlater⟩ := h.task_follows hs.coherent hd
    exact ⟨d', hd', hlater.same.2.1.trans hserver⟩

/-- A slot that is free belongs to no task in flight. -/
theorem Exclusive.ne_of_holder?_eq_none {s : State} (hs : s.Exclusive) {server : String}
    (hfree : s.holder? server = none) {e : Registry.Entry} (he : e ∈ s.registry.entries)
    (hactive : e.task.isTerminal = false) : e.task.server ≠ server := by
  rintro rfl
  have hended : s.hasEnded e.task.id = false :=
    hasEnded_eq_false_iff.mpr ⟨e, hs.distinct.find?_of_mem he hactive, hactive⟩
  simp [holder?, hs.sequential, hs.leased e he hactive, hended] at hfree

/-- A new task takes a free slot. -/
theorem Exclusive.triggered {s s' : State} (hs : s.Exclusive) (h : Effect s s') {t : Task}
    (free : s.holder? t.server = none) (created : s.registry.create t = (.ok t, s'.registry))
    (hleases : s'.leases = Assoc.put s.leases t.server t.id) : s'.Exclusive where
  coherent := h.coherent hs.coherent
  sequential := by rw [h.settings_eq, hs.sequential]
  distinct := hs.distinct.create created
  leased e he hactive := by
    rw [(Registry.create_ok created).2.2.2, List.mem_append, List.mem_singleton] at he
    rw [hleases, Assoc.lookup_put]
    rcases he with he | rfl
    · rw [if_neg (hs.ne_of_holder?_eq_none free he hactive)]
      exact hs.leased e he hactive
    · exact if_pos rfl
  held {server id} hlease := by
    rw [hleases, Assoc.lookup_put] at hlease
    split at hlease
    · next hserver =>
      obtain rfl := Option.some.inj hlease
      exact ⟨_, (Registry.find?_create created t.id).trans (if_pos rfl), hserver.symm⟩
    · obtain ⟨e, he, hserver⟩ := hs.held hlease
      exact ⟨e, Registry.find?_create_of_some created he, hserver⟩

/-- A worker that lets go gives back a lease only when its own task held it, and that has ended. -/
theorem Exclusive.released {s s' : State} (hs : s.Exclusive) (h : Effect s s') {w : Worker}
    (found : s.worker? w.task.id = some w) (phase : w.phase = .releasing)
    (hregistry : s'.registry = s.registry)
    (hleases : s'.leases = if s.leases.lookup w.task.server == some w.task.id
      then Assoc.erase s.leases w.task.server else s.leases) : s'.Exclusive where
  coherent := h.coherent hs.coherent
  sequential := by rw [h.settings_eq, hs.sequential]
  distinct := by
    rw [hregistry]
    exact hs.distinct
  leased e he hactive := by
    rw [hregistry] at he
    have hleased := hs.leased e he hactive
    rw [hleases]
    split
    · next hheld =>
      have hne : e.task.server ≠ w.task.server := by
        intro hserver
        rw [← hserver, hleased, beq_iff_eq, Option.some.injEq] at hheld
        have hended := hs.coherent.hasEnded_of_releasing found phase
        rw [← hheld, hasEnded, hs.distinct.find?_of_mem he hactive] at hended
        exact absurd hended (by simp [hactive])
      rw [Assoc.lookup_erase, if_neg hne, hleased]
    · exact hleased
  held {server id} hlease := by
    rw [hleases] at hlease
    rw [hregistry]
    split at hlease
    · rw [Assoc.lookup_erase] at hlease
      split at hlease
      · cases hlease
      · exact hs.held hlease
    · exact hs.held hlease

end State

/-- Every step leaves every task in flight with its slot. -/
theorem Effect.exclusive {s s' : State} (h : Effect s s') (hs : s.Exclusive) : s'.Exclusive := by
  have heffect := h
  cases h with
  | cancelled found active =>
    exact hs.amend heffect found (Task.follows_endFailed _ _ _ active (.inl rfl)) rfl rfl
  | skipped found phase entry pending unchanged =>
    exact hs.amend heffect entry (Task.follows_running pending) rfl rfl
  | called deadline found phase entry pending unchanged =>
    exact hs.amend heffect entry (Task.follows_running pending) rfl rfl
  | reported n found phase entry =>
    exact hs.amend heffect entry (hs.coherent.follows_progress found phase entry n) rfl rfl
  | settled now found phase entry recorded =>
    exact hs.amend heffect entry
      (hs.coherent.follows_settled found phase entry recorded) rfl rfl
  | triggered accepting free scripted counted created =>
    apply hs.triggered heffect free created
    simp [hs.sequential, Task.create]
  | released found phase => exact hs.released heffect found phase rfl rfl
  | _ => exact ⟨heffect.coherent hs.coherent, hs.sequential, hs.distinct, hs.leased, hs.held⟩

namespace State

/-- The slot of a server is taken exactly while one of its tasks is in flight. -/
theorem Exclusive.holder?_eq_none_iff {s : State} (hs : s.Exclusive) (server : String) :
    s.holder? server = none ↔ s.registry.inFlight server = [] := by
  constructor
  · intro hfree
    apply List.eq_nil_iff_forall_not_mem.mpr
    intro t ht
    obtain ⟨⟨e, he, rfl⟩, hserver, hactive⟩ := Registry.mem_inFlight.mp ht
    exact hs.ne_of_holder?_eq_none hfree he hactive hserver
  · intro hnone
    cases hholder : s.holder? server with
    | none => rfl
    | some holder =>
      simp only [holder?, hs.sequential, Bool.false_eq_true, if_false, Option.filter_eq_some_iff,
        Bool.not_eq_true'] at hholder
      obtain ⟨hlease, hactive⟩ := hholder
      obtain ⟨e, he, hserver⟩ := hs.held hlease
      obtain ⟨e', he', hactive'⟩ := hasEnded_eq_false_iff.mp hactive
      obtain rfl := Option.some.inj (he.symm.trans he')
      have hmem : e.task ∈ s.registry.inFlight server :=
        Registry.mem_inFlight.mpr ⟨⟨e, Registry.mem_of_find? he, rfl⟩, hserver, hactive'⟩
      rw [hnone] at hmem
      cases hmem

/-- Every task in flight holds the lease of its server. -/
theorem Exclusive.lookup_lease {s : State} (hs : s.Exclusive) {server : String} {t : Task}
    (ht : t ∈ s.registry.inFlight server) : s.leases.lookup server = some t.id := by
  obtain ⟨⟨e, he, rfl⟩, rfl, hactive⟩ := Registry.mem_inFlight.mp ht
  exact hs.leased e he hactive

theorem Exclusive.length_inFlight_le_one {s : State} (hs : s.Exclusive) (server : String) :
    (s.registry.inFlight server).length ≤ 1 := by
  cases hlease : s.leases.lookup server with
  | none =>
    have hnone : s.registry.inFlight server = [] := by
      apply List.eq_nil_iff_forall_not_mem.mpr
      intro t ht
      rw [hs.lookup_lease ht] at hlease
      cases hlease
    simp [hnone]
  | some holder =>
    have hid : ∀ t ∈ s.registry.inFlight server, t.id = holder := by
      intro t ht
      exact Option.some.inj ((hs.lookup_lease ht).symm.trans hlease)
    exact hs.distinct.length_inFlight_le_one hid

/-- In every state of a run of an orchestrator that started with all tasks ended and does not allow
concurrent rebuilds: a server has one task in flight at most, which is the active one and has the
lease, whichever worker lets go next; and a new rebuild conflicts exactly while there is such a task. -/
theorem single_flight (settings : Settings) (inventory : Inventory) (registry : Registry)
    (hsequential : settings.allowConcurrent = false)
    (hidle : ∀ t ∈ registry.tasks, t.isTerminal = true) (events : List Event) {s : State}
    (hs : s = (initial settings inventory registry).run events) (server : String) :
    (s.registry.inFlight server).length ≤ 1 ∧
    s.registry.activeFor server = (s.registry.inFlight server).head? ∧
    (∀ t ∈ s.registry.inFlight server, s.leases.lookup server = some t.id ∧
      ∀ id, (s.step (.release id)).leases.lookup server = some t.id) ∧
    (s.shuttingDown = false → ∀ script, s.scriptFor server true .plain = .ok script →
      script.lines.length < UInt32.size → ∀ force id now,
        ((∃ message, (s.trigger server force id now).1 = .error (.conflict message)) ↔
          s.registry.inFlight server ≠ []) ∧
        (s.registry.find? id = none → s.registry.isWritable = true →
          ((∃ t, (s.trigger server force id now).1 = .ok t) ↔
            s.registry.inFlight server = []))) := by
  have hexclusive : s.Exclusive := by
    rw [hs]
    exact run_preserves Effect.exclusive (exclusive_initial hsequential inventory hidle) events
  have hone := hexclusive.length_inFlight_le_one server
  have hfree := hexclusive.holder?_eq_none_iff server
  refine ⟨hone, Registry.activeFor_eq_head? hone, fun t ht => ⟨hexclusive.lookup_lease ht, ?_⟩, ?_⟩
  · intro id
    have hregistry : (s.step (.release id)).registry = s.registry := s.registry_release id
    apply ((s.step_effect (.release id)).exclusive hexclusive).lookup_lease
    rwa [hregistry]
  · intro hopen script hscript hlength force id now
    obtain ⟨total, hcount⟩ := Script.exists_total hlength
    refine ⟨?_, fun hid hwritable => ⟨fun ⟨t, ht⟩ => ?_, fun hnone => ?_⟩⟩
    · rw [trigger_conflict_iff hopen hscript hcount, ne_eq, hfree]
    · exact hfree.mp (holder?_of_trigger ht)
    · exact ⟨_, trigger_accepts hopen hscript hcount (hfree.mpr hnone) hwritable hid force now⟩

/-- The slot of a cancelled task is taken over while its worker is still in a call. -/
theorem single_flight_takeover :
    let s := (initial {} { shelves := [("web", [])] } {}).run
      [.trigger "web" false "a" 0, .start "a", .cancel "a" 1, .trigger "web" true "b" 2]
    s.registry.inFlight "web" = [.create "b" "web" 0 true 2] ∧
      s.registry.activeFor "web" = some (.create "b" "web" 0 true 2) ∧
      (s.step (.release "a")).leases.lookup "web" = some "b" ∧
      ∃ message, (s.trigger "web" false "c" 3).1 = .error (.conflict message) := by
  intro s
  have hflight : s.registry.inFlight "web" = [.create "b" "web" 0 true 2] := by decide +kernel
  have hopen : s.shuttingDown = false := by decide +kernel
  have hscript : s.scriptFor "web" true .plain = .ok ⟨"web", .plain, true, []⟩ := by
    decide +kernel
  obtain ⟨-, hactive, hlease, htrigger⟩ := single_flight {} { shelves := [("web", [])] } {} rfl
    (fun t ht => by cases ht)
    [.trigger "web" false "a" 0, .start "a", .cancel "a" 1, .trigger "web" true "b" 2] (s := s) rfl
    "web"
  rw [hflight] at hactive hlease
  refine ⟨hflight, hactive, (hlease _ List.mem_cons_self).2 "a", ?_⟩
  apply (htrigger hopen _ hscript (by decide) false "c" 3).1.mpr
  rw [hflight]
  exact List.cons_ne_nil _ _

end State

end FirewallRollout.Rebuild
