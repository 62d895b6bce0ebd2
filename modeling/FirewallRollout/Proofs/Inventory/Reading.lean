import FirewallRollout.Proofs.Inventory.Holdings
import FirewallRollout.Proofs.Inventory.Order
import FirewallRollout.Proofs.Script.Assembly

/-!
# Reading an inventory

Every reading of an inventory is settled by the map that the inventory stands for: the known servers
in ascending order, the rules of each in script order, and what a removal gives back. How the edits
that made it were mixed does not show.
-/
namespace FirewallRollout.Inventory

/-- The readings of an inventory are those of a map. -/
structure Presents (inv : Inventory) (held : Holdings) : Prop where
  placed : ∀ {server kept id r}, held server = some kept → kept id = some r →
    r.server = server ∧ r.id = id
  contains : ∀ server, inv.contains server = (held server).isSome
  ascending : inv.servers.Pairwise (· < ·)
  mem_servers : ∀ server, server ∈ inv.servers ↔ (held server).isSome
  unknown : ∀ {server}, held server = none → inv.rulesFor server = .error (.notFound .server server)
  known : ∀ {server kept}, held server = some kept →
    ∃ rules, inv.rulesFor server = .ok rules ∧ rules.Pairwise Rule.Before ∧
      (rules.map Rule.id).Nodup ∧ ∀ r, r ∈ rules ↔ kept r.id = some r
  /-- All rules are those of one server after the other. -/
  allRules : ∃ byServer, inv.servers.mapM inv.rulesFor = .ok byServer ∧
    inv.allRules = byServer.flatten
  remove_unknown : ∀ {server} id, held server = none →
    inv.remove server id = .error (.notFound .server server)
  remove_absent : ∀ {server kept id}, held server = some kept → kept id = none →
    inv.remove server id = .error (.notFound .rule id.display)
  remove_stored : ∀ {server kept id r}, held server = some kept → kept id = some r →
    inv.remove server id = .ok (r, inv.edited (.remove server id))

theorem mem_servers_iff (inv : Inventory) (server : String) :
    server ∈ inv.servers ↔ (inv.holdings server).isSome := by
  rw [servers, List.mem_mergeSort, ← contains_iff, contains_eq_isSome, holdings, Option.isSome_map]

/-- Names that differ come in strict order. -/
theorem pairwise_sorted {names : List String} (h : names.Nodup) :
    (names.mergeSort fun s t => decide (s ≤ t)).Pairwise (· < ·) := by
  have htrans : ∀ a b c : String, decide (a ≤ b) = true → decide (b ≤ c) = true →
      decide (a ≤ c) = true := fun a b c hab hbc =>
    decide_eq_true (String.le_trans (of_decide_eq_true hab) (of_decide_eq_true hbc))
  have htotal : ∀ a b : String, (decide (a ≤ b) || decide (b ≤ a)) = true := fun a b => by
    simpa using String.le_total a b
  have hle := @List.pairwise_mergeSort _ (fun s t => decide (s ≤ t)) htrans htotal names
  have hne : (names.mergeSort fun s t => decide (s ≤ t)).Pairwise (· ≠ ·) :=
    ((List.mergeSort_perm _ _).nodup_iff.mpr h : List.Nodup _)
  exact (hle.and hne).imp fun ⟨hst, hne⟩ => Std.lt_of_le_of_ne (of_decide_eq_true hst) hne

namespace Sound
variable {inv : Inventory} (hinv : inv.Sound)
include hinv

theorem ascending_servers : inv.servers.Pairwise (· < ·) := pairwise_sorted hinv.servers

/-- The rules of a known server are those under their identifiers, in strict order. -/
theorem rulesFor_known {server : String} {kept : RuleId → Option Rule}
    (h : inv.holdings server = some kept) :
    ∃ rules, inv.rulesFor server = .ok rules ∧ rules.Pairwise Rule.Before ∧
      (rules.map Rule.id).Nodup ∧ ∀ r, r ∈ rules ↔ kept r.id = some r := by
  obtain ⟨rules, hrules, rfl⟩ := Option.map_eq_some_iff.mp h
  refine ⟨Rule.inOrder rules, by rw [rulesFor, hrules], Rule.pairwise_inOrder (hinv.ids hrules),
    ((Rule.inOrder_perm rules).map Rule.id).nodup_iff.mpr (hinv.ids hrules), fun r => ?_⟩
  rw [Rule.mem_inOrder]
  constructor
  · exact fun hr => Keyed.find?_of_mem Rule.id (hinv.ids hrules) hr
  · exact fun hr => List.mem_of_find?_eq_some hr

/-- An inventory is read as the map that it stands for. -/
theorem presents : inv.Presents inv.holdings where
  placed {server kept id r} hkept hr := by
    obtain ⟨rules, hrules, rfl⟩ := Option.map_eq_some_iff.mp hkept
    exact ⟨hinv.owned hrules r (List.mem_of_find?_eq_some hr), by simpa using List.find?_some hr⟩
  contains server := by rw [contains_eq_isSome, holdings, Option.isSome_map]
  ascending := hinv.ascending_servers
  mem_servers := inv.mem_servers_iff
  unknown {server} h := by
    rw [holdings, Option.map_eq_none_iff] at h
    rw [rulesFor, h]
  known := hinv.rulesFor_known
  allRules := by
    have heach : ∀ server ∈ inv.servers,
        inv.rulesFor server = .ok (Rule.inOrder ((inv.shelf? server).getD [])) := by
      intro server hserver
      obtain ⟨kept, hkept⟩ := Option.isSome_iff_exists.mp ((inv.mem_servers_iff server).mp hserver)
      obtain ⟨rules, hrules, -⟩ := Option.map_eq_some_iff.mp hkept
      rw [rulesFor, hrules, Option.getD_some]
    exact ⟨_, mapM_ok heach, List.flatMap_def⟩
  remove_unknown id h := by rw [remove_eq, h]
  remove_absent h habsent := by rw [remove_eq, h]; simp only [habsent]
  remove_stored h hr := by rw [Inventory.edited, remove_eq, h]; simp only [hr]

end Sound

namespace Presents
variable {inv inv' : Inventory} {held : Holdings}

/-- One map is read in one way. -/
theorem unique (h : inv.Presents held) (h' : inv'.Presents held) :
    inv.servers = inv'.servers ∧ inv.rulesFor = inv'.rulesFor ∧ inv.allRules = inv'.allRules := by
  have hnodup : ∀ {l : List String}, l.Pairwise (· < ·) → l.Nodup := fun hl =>
    hl.imp fun hlt heq => absurd (heq ▸ hlt) (String.lt_irrefl _)
  have hperm : inv.servers.Perm inv'.servers :=
    (List.perm_ext_iff_of_nodup (hnodup h.ascending) (hnodup h'.ascending)).mpr fun server =>
      (h.mem_servers server).trans (h'.mem_servers server).symm
  have hservers : inv.servers = inv'.servers :=
    hperm.eq_of_pairwise (fun s t _ _ hst hts => absurd hts (String.lt_asymm hst))
      h.ascending h'.ascending
  have hrulesFor : inv.rulesFor = inv'.rulesFor := by
    funext server
    cases hserver : held server with
    | none => rw [h.unknown hserver, h'.unknown hserver]
    | some kept =>
      obtain ⟨rules, hrules, hbefore, -, hmem⟩ := h.known hserver
      obtain ⟨rules', hrules', hbefore', -, hmem'⟩ := h'.known hserver
      rw [hrules, hrules', Rule.eq_of_pairwise_before hbefore hbefore' fun r =>
        (hmem r).trans (hmem' r).symm]
  refine ⟨hservers, hrulesFor, ?_⟩
  obtain ⟨byServer, hbyServer, hall⟩ := h.allRules
  obtain ⟨byServer', hbyServer', hall'⟩ := h'.allRules
  rw [hservers, hrulesFor, hbyServer'] at hbyServer
  rw [hall, hall', Except.ok.inj hbyServer]

/-- A server that the inventory lists never has a rule of another server. -/
theorem server_of_rulesFor (h : inv.Presents held) {server : String} {rules : List Rule}
    (hrules : inv.rulesFor server = .ok rules) {r : Rule} (hr : r ∈ rules) : r.server = server := by
  cases hserver : held server with
  | none =>
    rw [h.unknown hserver] at hrules
    cases hrules
  | some kept =>
    obtain ⟨rules', hrules', -, -, hmem⟩ := h.known hserver
    obtain rfl := Except.ok.inj (hrules.symm.trans hrules')
    exact (h.placed hserver ((hmem r).mp hr)).1

/-- So that a script of what is listed for a server fails on a rule that does not compile only. -/
theorem assemble_error (h : inv.Presents held) {server : String} {rules : List Rule}
    (hrules : inv.rulesFor server = .ok rules) {onlyEnabled : Bool} {format : Script.Format}
    {fault : Script.Fault} (hfault : Script.assemble server rules onlyEnabled format = .error fault) :
    ∃ r ∈ rules, ∃ f, r.compile = .error f ∧ fault = .rule r.id f := by
  rcases Script.assemble_error hfault with ⟨r, hr, hserver⟩ | ⟨r, hr, f, hf, rfl⟩
  · exact absurd (h.server_of_rulesFor hrules hr) hserver
  · exact ⟨r, Script.mem_of_mem_selected hr, f, hf, rfl⟩

end Presents

theorem presents_ofEdits (edits : List Edit) :
    (ofEdits edits).Presents (Holdings.ofEdits edits) :=
  holdings_ofEdits edits ▸ (sound_ofEdits edits).presents

/-- A server that is known stays known through every edit. -/
theorem isSome_edited {held : Holdings} {server : String} (h : (held server).isSome) (e : Edit) :
    (held.edited e server).isSome := by
  cases e with
  | register server' | upsert r =>
    rw [Holdings.edited, Function.update_apply]
    split <;> simp [h]
  | remove server' id =>
    rw [Holdings.edited, Function.update_apply]
    split
    · next hserver => simpa [← hserver] using h
    · exact h

theorem ofEdits_append (edits later : List Edit) :
    ofEdits (edits ++ later) = later.foldl edited (ofEdits edits) := List.foldl_append

theorem ofRules_eq (rules : List Rule) : ofRules rules = ofEdits (rules.map .upsert) := by
  rw [ofRules, ofEdits, List.foldl_map]
  rfl

theorem contains_ofEdits_append {edits : List Edit} {server : String}
    (h : (ofEdits edits).contains server = true) (later : List Edit) :
    (ofEdits (edits ++ later)).contains server = true := by
  have hfold : ∀ {held : Holdings}, (held server).isSome →
      (later.foldl Holdings.edited held server).isSome := by
    induction later with
    | nil => exact fun h => h
    | cons e later ih => exact fun h => ih (isSome_edited h e)
  rw [(presents_ofEdits _).contains] at h ⊢
  rw [Holdings.ofEdits, List.foldl_append]
  exact hfold h

/-- A removal takes out what is stored and nothing else, and one that is refused takes out nothing. -/
theorem remove_ofEdits (edits : List Edit) (server : String) (id : RuleId) :
    match (ofEdits edits).remove server id with
    | .ok (r, inv) =>
      (Holdings.ofEdits edits).under server id = some r ∧
        inv.Presents (Function.update (Holdings.ofEdits edits) server
          (some (Function.update ((Holdings.ofEdits edits).under server) id none)))
    | .error _ =>
      (Holdings.ofEdits edits).under server id = none ∧
        ofEdits (edits ++ [.remove server id]) = ofEdits edits := by
  have hafter : ofEdits (edits ++ [.remove server id]) =
      (ofEdits edits).edited (.remove server id) := ofEdits_append edits [.remove server id]
  have hpresents := presents_ofEdits edits
  cases hheld : Holdings.ofEdits edits server with
  | none =>
    have hremove := hpresents.remove_unknown id hheld
    rw [hafter, Inventory.edited, hremove]
    exact ⟨by rw [Holdings.under, hheld]; rfl, rfl⟩
  | some kept =>
    have hunder : (Holdings.ofEdits edits).under server = kept := by
      rw [Holdings.under, hheld, Option.getD_some]
    rw [hunder]
    cases hkept : kept id with
    | none =>
      have hremove := hpresents.remove_absent hheld hkept
      rw [hafter, Inventory.edited, hremove]
      exact ⟨rfl, rfl⟩
    | some r =>
      have hmap : Holdings.ofEdits (edits ++ [.remove server id]) =
          Function.update (Holdings.ofEdits edits) server (some (Function.update kept id none)) := by
        rw [Holdings.ofEdits, List.foldl_append, ← Holdings.ofEdits, List.foldl_cons, List.foldl_nil,
          Holdings.edited, hheld, Option.map_some]
      rw [hpresents.remove_stored hheld hkept]
      exact ⟨rfl, hmap ▸ hafter ▸ presents_ofEdits (edits ++ [.remove server id])⟩

/-- An inventory is a finite map. What edits make, or a file, which is a run of writes in the order of
the file, is read as the map that the same edits make. Edits that make one map are read alike; a
removal gives back the stored rule and drops it alone; a server stays known; and no script of what is
listed for a server fails on the owner of a rule. -/
theorem reads_as_map (edits : List Edit) :
    (ofEdits edits).Presents (Holdings.ofEdits edits) ∧
    (∀ edits', Holdings.ofEdits edits' = Holdings.ofEdits edits →
      (ofEdits edits').servers = (ofEdits edits).servers ∧
      (ofEdits edits').rulesFor = (ofEdits edits).rulesFor ∧
      (ofEdits edits').allRules = (ofEdits edits).allRules) ∧
    (∀ server id,
      match (ofEdits edits).remove server id with
      | .ok (r, inv) =>
        (Holdings.ofEdits edits).under server id = some r ∧
          inv.Presents (Function.update (Holdings.ofEdits edits) server
            (some (Function.update ((Holdings.ofEdits edits).under server) id none)))
      | .error _ =>
        (Holdings.ofEdits edits).under server id = none ∧
          ofEdits (edits ++ [.remove server id]) = ofEdits edits) ∧
    (∀ server, (ofEdits edits).contains server = true →
      ∀ later, (ofEdits (edits ++ later)).contains server = true) ∧
    (∀ server rules, (ofEdits edits).rulesFor server = .ok rules →
      ∀ onlyEnabled format fault, Script.assemble server rules onlyEnabled format = .error fault →
        ∀ message, fault.error ≠ .validation "serverId" message) ∧
    (∀ document inv, ofToml document = .ok inv →
      ∃ rules, (Toml.parse? document).bind rulesOfDatum? = some rules ∧
        inv = ofEdits (rules.map .upsert)) := by
  refine ⟨presents_ofEdits edits, fun edits' h => ?_, remove_ofEdits edits,
    fun server h later => contains_ofEdits_append h later,
    fun server rules hrules onlyEnabled format fault hfault message => ?_, fun document inv h => ?_⟩
  · exact Presents.unique (h ▸ presents_ofEdits edits') (presents_ofEdits edits)
  · obtain ⟨r, -, f, hf, rfl⟩ := (presents_ofEdits edits).assemble_error hrules hfault
    -- the fault names a field that compiling looks at, and the owner is none of them
    have hfield := Rule.compile_error hf
    rintro herror
    obtain ⟨hserverId, -⟩ : f.field = "serverId" ∧ _ := Error.validation.inj herror
    simp [hserverId, Rule.compiledFields] at hfield
  · unfold ofToml at h
    split at h
    · next rules hrules => exact ⟨rules, hrules, by rw [← ofRules_eq, Except.ok.inj h]⟩
    · cases h

/-- Three rules that were written in another order than that of the script, and with a removal in
between; one of them does not compile, and two are in a file. -/
theorem reads_as_map_out_of_order :
    let rule (id : RuleId) (priority : Int64) (action : String) : Rule :=
      { id, server := "web", chain := "INPUT", action, priority }
    let rules := [rule (.text "a") 0 "DROP", rule (.number 3) 5 "DORP", rule (.text "10") 5 "ACCEPT"]
    let edits := [Edit.upsert (rule (.text "10") 5 "ACCEPT"), .upsert (rule (.text "a") 0 "DROP"),
      .remove "web" (.text "10"), .upsert (rule (.number 3) 5 "DORP"),
      .upsert (rule (.text "10") 5 "ACCEPT")]
    (ofEdits edits).rulesFor "web" = .ok rules ∧
    (ofEdits (rules.map .upsert ++ [.remove "web" (.text "a")])).contains "web" = true ∧
    (∀ message, (Script.Fault.rule (.number 3) (.unknownAction "DORP")).error ≠
      .validation "serverId" message) ∧
    ∃ read, (Toml.parse?
        "rules = [[\"10\", \"web\", \"filter\", \"INPUT\", \"ACCEPT\"],
          [3, \"web\", \"filter\", \"INPUT\", \"DORP\"]]").bind rulesOfDatum? = some read ∧
      ofEdits [.upsert (rule (.text "10") 0 "ACCEPT"), .upsert (rule (.number 3) 0 "DORP")] =
        ofEdits (read.map .upsert) := by
  intro rule rules edits
  obtain ⟨-, halike, -, hknown, hscript, hfile⟩ := reads_as_map (rules.map .upsert)
  have hselected : Script.selected rules true = rules := List.mergeSort_of_pairwise (by decide)
  have hrules : (ofEdits (rules.map .upsert)).rulesFor "web" = .ok rules :=
    congrArg Except.ok (List.mergeSort_of_pairwise (by decide))
  have hfails : Script.assemble "web" rules true .plain =
      .error (.rule (.number 3) (.unknownAction "DORP")) := by
    rw [Script.assemble, hselected]
    decide +kernel
  refine ⟨?_, hknown "web" (by decide +kernel) [.remove "web" (.text "a")],
    hscript "web" rules hrules true .plain _ hfails, hfile _ _ (by decide +kernel)⟩
  have hsame : Holdings.ofEdits edits = Holdings.ofEdits (rules.map .upsert) := by
    have hweb : (Holdings.ofEdits edits).under "web" =
        (Holdings.ofEdits (rules.map .upsert)).under "web" := by
      funext id
      simp only [Holdings.ofEdits, edits, rules, rule, List.map_cons, List.map_nil, List.foldl_cons,
        List.foldl_nil, Holdings.edited, Holdings.under, Function.update_self, Option.map_some,
        Option.getD_some, Function.update_apply]
      split_ifs <;> simp_all
    funext server
    by_cases hserver : server = "web"
    · rw [hserver]
      exact congrArg some hweb
    · simp [Holdings.ofEdits, edits, rules, rule, Holdings.edited, hserver]
  rw [(halike edits hsame).2.1, hrules]

end FirewallRollout.Inventory
