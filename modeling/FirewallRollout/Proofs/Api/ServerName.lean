import FirewallRollout.Proofs.Api.Answer
import FirewallRollout.Proofs.Api.Target
import FirewallRollout.Proofs.Inventory.Statistics
import FirewallRollout.Proofs.Registry.Paging

/-!
# One server in the path and in the query

A rebuild is asked for under a name in the path, and its task is looked for under the same name in a
query. Only the query trims the name, so that both mean the same server exactly when there is nothing
to trim. Otherwise the query is about another server, or about all of them if the name is blank.
-/
namespace FirewallRollout

theorem Text.present_some (s : String) :
    present (some s) = if trim s = "" then none else some (trim s) := by
  by_cases h : trim s = "" <;> simp [present, Option.filter, h]

namespace Registry

theorem filter_accepts_server (tasks : List Task) (server : String) :
    tasks.filter (Filter.accepts { server := some server }) = tasks.filter (·.server == server) :=
  List.filter_congr fun t _ => by simp [Filter.accepts]

theorem filter_accepts_all (tasks : List Task) : tasks.filter (Filter.accepts {}) = tasks :=
  List.filter_eq_self.mpr fun _ _ => rfl

end Registry

namespace Api
open Rebuild (State)

/-- A response is the first page of a listing of some tasks, and tells how many there are. -/
def Shows (response : Response) (tasks : List Task) : Prop :=
  ∃ whole : List Task, whole.Perm tasks ∧ response =
    { status := 200
      payload := .page { tasks := whole.take 50, total := whole.length, limit := 50, offset := 0 } }

/-- Of two lists that are shown alike, one is as long as the other, and they have a task in common
unless they are empty. -/
theorem Shows.alike {response : Response} {tasks tasks' : List Task} (h : Shows response tasks)
    (h' : Shows response tasks') :
    tasks.length = tasks'.length ∧ (tasks ≠ [] → ∃ t ∈ tasks, t ∈ tasks') := by
  obtain ⟨whole, hwhole, hresponse⟩ := h
  obtain ⟨whole', hwhole', rfl⟩ := h'
  simp only [Response.mk.injEq, Payload.page.injEq, Page.mk.injEq, true_and, and_true] at hresponse
  obtain ⟨hpage, htotal⟩ := hresponse
  refine ⟨(hwhole.length_eq.symm.trans htotal.symm).trans hwhole'.length_eq, fun hne => ?_⟩
  cases whole with
  | nil => exact absurd hwhole.nil_eq.symm hne
  | cons t whole =>
    have hshown : t ∈ whole'.take 50 := by
      rw [hpage]
      exact .head _
    exact ⟨t, hwhole.mem_iff.mp (.head _), hwhole'.mem_iff.mp (List.mem_of_mem_take hshown)⟩

section Listing
variable (s : State) {server : String}

theorem shows_trimmed (h : Text.trim server ≠ "") :
    Shows (get s (queryTarget "/tasks" server))
      (s.registry.tasks.filter (·.server == Text.trim server)) := by
  rw [get_tasks, Text.present_some, if_neg h, ← Registry.filter_accepts_server]
  exact ⟨_, s.registry.matching_perm _, rfl⟩

theorem shows_all (h : Text.trim server = "") :
    Shows (get s (queryTarget "/tasks" server)) s.registry.tasks := by
  rw [get_tasks, Text.present_some, if_pos h]
  refine ⟨_, ?_, rfl⟩
  have hperm := s.registry.matching_perm {}
  rwa [Registry.filter_accepts_all] at hperm

/-- When the tasks of a server are listed under its name, if it has any. -/
theorem shows_iff {t : Task} (ht : t ∈ s.registry.tasks) (hserver : t.server = server) :
    Shows (get s (queryTarget "/tasks" server)) (s.registry.tasks.filter (·.server == server)) ↔
      Text.trim server = server ∧ server ≠ "" ∨
        Text.trim server = "" ∧ ∀ u ∈ s.registry.tasks, u.server = server := by
  have hmem : t ∈ s.registry.tasks.filter (·.server == server) :=
    List.mem_filter.mpr ⟨ht, beq_iff_eq.mpr hserver⟩
  by_cases hblank : Text.trim server = ""
  · constructor
    · intro h
      have hlength := (h.alike (shows_all s hblank)).1
      rw [List.length_filter_eq_length_iff] at hlength
      exact .inr ⟨hblank, fun u hu => beq_iff_eq.mp (hlength u hu)⟩
    · rintro (⟨htrim, hne⟩ | ⟨-, hall⟩)
      · exact absurd (htrim.symm.trans hblank) hne
      · rw [List.filter_eq_self.mpr fun u hu => beq_iff_eq.mpr (hall u hu)]
        exact shows_all s hblank
  · constructor
    · intro h
      obtain ⟨u, hu, hu'⟩ := (h.alike (shows_trimmed s hblank)).2 (List.ne_nil_of_mem hmem)
      have htrim : Text.trim server = server :=
        (beq_iff_eq.mp (List.mem_filter.mp hu').2).symm.trans (beq_iff_eq.mp (List.mem_filter.mp hu).2)
      exact .inl ⟨htrim, htrim ▸ hblank⟩
    · rintro (⟨htrim, -⟩ | ⟨htrim, -⟩)
      · have h := shows_trimmed s hblank
        rwa [htrim] at h
      · exact absurd htrim hblank

end Listing

/-- The census of a name in a query is that of the rules of the trimmed name. -/
theorem get_stats_trimmed {s : State} (hinv : s.inventory.Sound) {server : String}
    (h : Text.trim server ≠ "") :
    get s (queryTarget "/stats" server) =
      .ofExcept 200 ((s.rulesFor (Text.trim server)).map fun rules =>
        .census (.ofRules rules none)) := by
  rw [get_stats, Text.present_some, if_neg h, Rebuild.State.census_some hinv]
  cases s.rulesFor (Text.trim server) <;> rfl

/-- A rebuild that is accepted adds a task of its server, which is known. -/
theorem rebuild_accepted {s s' : State} {server : String} {body : List UInt8} {fresh : String}
    {now : Int64} {response : Response} (h : rebuild s server body fresh now = (response, s'))
    (haccepted : response.status = 202) :
    ∃ t rules, response.payload = .task t ∧ t ∈ s'.registry.tasks ∧ t.server = server ∧
      s'.inventory = s.inventory ∧ s'.rulesFor server = .ok rules := by
  unfold rebuild at h
  split at h
  · next hread =>
    obtain ⟨rfl, -⟩ := Prod.mk.inj h
    have hle := le_status_of_readBody hread
    omega
  next force hforce =>
  cases hresult : s.trigger server force fresh now with
  | mk result s'' =>
    rw [hresult] at h
    obtain ⟨rfl, rfl⟩ := Prod.mk.inj h
    cases result with
    | error e =>
      have hstatus : (Response.ofExcept 202 (Except.map Payload.task (.error e))).status =
          e.httpStatus := rfl
      have hle := e.le_httpStatus
      omega
    | ok t =>
      obtain ⟨script, total, registry, -, -, hscript, -, rfl, hcreate, rfl⟩ :=
        State.trigger_ok hresult
      obtain ⟨rules, hrules, -⟩ := State.scriptFor_eq_ok_iff.mp hscript
      refine ⟨_, rules, rfl, ?_, rfl, rfl, hrules⟩
      refine List.mem_map.mpr ⟨{ seq := s.registry.nextSeq, task := _ }, ?_, rfl⟩
      rw [(Registry.create_ok hcreate).2.2.2]
      exact List.mem_append_right _ (.head _)

/-- After a rebuild was accepted for a server that the path names, a query with that name lists the
tasks of the server, with the new one, exactly if the name has no blanks at its ends, unless it is
blank and there are no other tasks; and then the census is that of the rules that are listed for the
server. With blanks at its ends the name is that of another server, which need not be known, and a
blank name is none, so that all tasks are listed and all rules counted. -/
theorem named_alike_iff (s : State) (edits : List Inventory.Edit) (hs : s.inventory = .ofEdits edits)
    (server : String) (body : List UInt8) (fresh : String) (now : Int64) {response : Response}
    {s' : State}
    (h : handle s { method := "POST", target := serverTarget server "rebuild", body } fresh now =
      (response, s'))
    (haccepted : response.status = 202) :
    ∃ t rules, response.payload = .task t ∧ t ∈ s'.registry.tasks ∧ t.server = server ∧
      get s' (serverTarget server "rules") = { status := 200, payload := .rules rules } ∧
      (Shows (get s' (queryTarget "/tasks" server))
          (s'.registry.tasks.filter (·.server == server)) ↔
        Text.trim server = server ∧ server ≠ "" ∨
          Text.trim server = "" ∧ ∀ u ∈ s'.registry.tasks, u.server = server) ∧
      (Text.trim server = server → server ≠ "" →
        get s' (queryTarget "/stats" server) =
          { status := 200, payload := .census (.ofRules rules none) }) ∧
      (Text.trim server ≠ "" →
        Shows (get s' (queryTarget "/tasks" server))
          (s'.registry.tasks.filter (·.server == Text.trim server)) ∧
        get s' (queryTarget "/stats" server) =
          .ofExcept 200 ((s'.rulesFor (Text.trim server)).map fun rules =>
            .census (.ofRules rules none))) ∧
      (Text.trim server = "" →
        Shows (get s' (queryTarget "/tasks" server)) s'.registry.tasks ∧
        get s' (queryTarget "/stats" server) =
          { status := 200, payload := .census (.ofRules s'.inventory.allRules none) }) := by
  rw [handle_rebuild] at h
  obtain ⟨t, rules, hpayload, hmem, hserver, hinventory, hrules⟩ := rebuild_accepted h haccepted
  have hinv : s'.inventory.Sound := hinventory ▸ hs ▸ Inventory.sound_ofEdits edits
  refine ⟨t, rules, hpayload, hmem, hserver, ?_, shows_iff s' hmem hserver, fun htrim hne => ?_,
    fun hname => ⟨shows_trimmed s' hname, get_stats_trimmed hinv hname⟩,
    fun hblank => ⟨shows_all s' hblank, ?_⟩⟩
  · rw [get_rules, hrules]
    rfl
  · rw [get_stats_trimmed hinv (htrim.symm ▸ hne), htrim, hrules]
    rfl
  · rw [get_stats, Text.present_some, if_pos hblank]
    rfl

/-- A server whose name begins with a blank: its rebuild is accepted and its rule is listed, but its
task is not, and its census is refused as that of an unknown server. -/
theorem named_alike_iff_blank :
    let r : Rule := { id := .number 1, server := " S1", chain := "INPUT", action := "ACCEPT" }
    let s := State.initial {} (.ofEdits [.upsert r]) .empty
    let posted := handle s { method := "POST", target := serverTarget " S1" "rebuild" } "a" 0
    posted.1.status = 202 ∧
      get posted.2 (serverTarget " S1" "rules") = { status := 200, payload := .rules [r] } ∧
      ¬ Shows (get posted.2 (queryTarget "/tasks" " S1"))
        (posted.2.registry.tasks.filter (·.server == " S1")) ∧
      get posted.2 (queryTarget "/stats" " S1") = .ofError (.notFound .server "S1") := by
  intro r s posted
  have hposted : posted = rebuild s " S1" [] "a" 0 := handle_rebuild ..
  have haccepted : posted.1.status = 202 := by
    rw [hposted]
    decide +kernel
  have hrules : posted.2.rulesFor " S1" = .ok [r] := by
    rw [hposted]
    decide +kernel
  have hunknown : posted.2.rulesFor "S1" = .error (.notFound .server "S1") := by
    rw [hposted]
    decide +kernel
  have htrim : Text.trim " S1" = "S1" := by decide +kernel
  obtain ⟨t, rules, -, -, -, hlisted, hiff, -, htrimmed, -⟩ :=
    named_alike_iff s [.upsert r] rfl " S1" [] "a" 0 (Prod.eta posted).symm haccepted
  refine ⟨haccepted, ?_, ?_, ?_⟩
  · rw [get_rules, hrules]
    rfl
  · rw [hiff, htrim]
    simp
  · rw [(htrimmed (by rw [htrim]; decide)).2, htrim, hunknown]
    rfl

end Api
end FirewallRollout
