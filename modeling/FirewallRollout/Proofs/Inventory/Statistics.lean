import FirewallRollout.Proofs.Inventory.Reading
import FirewallRollout.Proofs.Rule.Argument
import FirewallRollout.Rebuild.State
import Mathlib.Algebra.BigOperators.Group.List.Basic

/-!
# Statistics add up

A census is the sum of the censuses of single rules, each of which is counted under one name. So it
does not depend on the order of the rules, the tallies by table make up the whole, and the census of
an inventory is the sum of those of its servers.
-/
namespace FirewallRollout

namespace Tally

instance : Zero Tally := ⟨{}⟩

instance : Add Tally := ⟨fun t u => { total := t.total + u.total, enabled := t.enabled + u.enabled }⟩

/-- The tally of one rule. -/
def one (r : Rule) : Tally := { total := 1, enabled := if r.enabled then 1 else 0 }

@[ext] theorem ext {t u : Tally} (htotal : t.total = u.total) (henabled : t.enabled = u.enabled) :
    t = u := by
  cases t
  cases u
  simp_all

@[simp] theorem total_zero : (0 : Tally).total = 0 := rfl

@[simp] theorem enabled_zero : (0 : Tally).enabled = 0 := rfl

@[simp] theorem total_add (t u : Tally) : (t + u).total = t.total + u.total := rfl

@[simp] theorem enabled_add (t u : Tally) : (t + u).enabled = t.enabled + u.enabled := rfl

theorem total_sum (tallies : List Tally) : tallies.sum.total = (tallies.map total).sum := by
  induction tallies with
  | nil => rfl
  | cons t tallies ih => simp [ih]

theorem enabled_sum (tallies : List Tally) : tallies.sum.enabled = (tallies.map enabled).sum := by
  induction tallies with
  | nil => rfl
  | cons t tallies ih => simp [ih]

theorem ofRules_nil : ofRules [] = 0 := rfl

theorem ofRules_append (rules more : List Rule) :
    ofRules (rules ++ more) = ofRules rules + ofRules more := by
  ext <;> simp [ofRules]

theorem ofRules_singleton (r : Rule) : ofRules [r] = one r := by
  ext <;> simp [ofRules, one, List.countP_cons]

theorem ofRules_perm {rules rules' : List Rule} (h : rules.Perm rules') :
    ofRules rules = ofRules rules' := by
  ext
  · exact h.length_eq
  · exact h.countP_eq _

/-- What is not enabled is disabled. -/
theorem disabled_ofRules (rules : List Rule) :
    (ofRules rules).disabled = rules.countP fun r => !r.enabled := by
  have hsplit := List.length_eq_countP_add_countP (fun r : Rule => r.enabled) (l := rules)
  have hdisabled : (rules.countP fun r => decide ¬ r.enabled = true) =
      rules.countP fun r => !r.enabled := by
    congr 1
    funext r
    simp
  simp only [disabled, ofRules]
  omega

theorem total_ofRules (rules : List Rule) :
    (ofRules rules).total = (ofRules rules).enabled + (ofRules rules).disabled := by
  have hle : (ofRules rules).enabled ≤ (ofRules rules).total := List.countP_le_length
  simp only [disabled]
  omega

/-- The tallies under all names make up the tally of all. -/
theorem sum_fibers {κ : Type} [DecidableEq κ] (key : Rule → κ) {keys : List κ} (hkeys : keys.Nodup)
    {rules : List Rule} (h : ∀ r ∈ rules, key r ∈ keys) :
    (keys.map fun k => ofRules (rules.filter (key · == k))).sum = ofRules rules := by
  ext
  · have htotal := Keyed.sum_countP_fibers key (fun _ => true) hkeys h
    simpa [total_sum, ofRules, Function.comp_def] using htotal
  · simpa [enabled_sum, ofRules, Function.comp_def] using Keyed.sum_countP_fibers key Rule.enabled hkeys h

end Tally

namespace Census

/-- Names in ascending order, each once. -/
def ascending (names : List String) : List String :=
  names.eraseDups.mergeSort fun s t => decide (s ≤ t)

theorem mem_ascending {name : String} {names : List String} : name ∈ ascending names ↔ name ∈ names := by
  rw [ascending, List.mem_mergeSort, List.mem_eraseDups]

theorem nodup_eraseDups (names : List String) : names.eraseDups.Nodup := by
  induction hn : names.length using Nat.strongRecOn generalizing names with
  | _ n ih =>
    cases names with
    | nil => simp
    | cons name names =>
      have hshorter : (names.filter fun other => !other == name).length < n := by
        have hle := List.length_filter_le (fun other => !other == name) names
        simp only [List.length_cons] at hn
        omega
      rw [List.eraseDups_cons, List.nodup_cons]
      exact ⟨by simp [List.mem_eraseDups], ih _ hshorter _ rfl⟩

theorem pairwise_ascending (names : List String) : (ascending names).Pairwise (· < ·) :=
  Inventory.pairwise_sorted (nodup_eraseDups names)

/-- Two lists of the same names come to the same. -/
theorem ascending_congr {names names' : List String} (h : ∀ name, name ∈ names ↔ name ∈ names') :
    ascending names = ascending names' := by
  have hnodup : ∀ l : List String, (ascending l).Nodup := fun l =>
    (List.mergeSort_perm _ _).nodup_iff.mpr (nodup_eraseDups l)
  have hperm : (ascending names).Perm (ascending names') :=
    (List.perm_ext_iff_of_nodup (hnodup names) (hnodup names')).mpr fun name => by
      rw [mem_ascending, mem_ascending, h]
  exact hperm.eq_of_pairwise (fun s t _ _ hst hts => absurd hts (String.lt_asymm hst))
    (pairwise_ascending names) (pairwise_ascending names')

/-- The names that are counted. -/
def names (c : Census) : List String := c.byTable.map Prod.fst

/-- What is counted under a name. -/
def under (c : Census) (name : String) : Tally := (c.byTable.lookup name).getD 0

/-- The census that counts nothing, under the four tables. -/
instance : Zero Census := ⟨.ofRules [] none⟩

/-- Censuses are added up name by name. -/
instance : Add Census := ⟨fun a b =>
  { configs := a.configs + b.configs
    byTable := (ascending (a.names ++ b.names)).map fun name => (name, a.under name + b.under name) }⟩

/-- The rules of one server, or of all. -/
def counted (rules : List Rule) (server : Option String) : List Rule :=
  rules.filter fun r => server.all (r.server == ·)

theorem names_ofRules (rules : List Rule) (server : Option String) :
    (ofRules rules server).names =
      ascending (Table.all.map Table.name ++ (counted rules server).map Rule.tableName) := by
  simp [names, ofRules, tableNames, ascending, counted, Function.comp_def]

theorem mem_names_ofRules {rules : List Rule} {server : Option String} {name : String} :
    name ∈ (ofRules rules server).names ↔
      name ∈ Table.all.map Table.name ∨ ∃ r ∈ counted rules server, r.tableName = name := by
  rw [names_ofRules, mem_ascending, List.mem_append, List.mem_map (f := Rule.tableName)]

theorem under_ofRules (rules : List Rule) (server : Option String) (name : String) :
    (ofRules rules server).under name =
      .ofRules ((counted rules server).filter (·.tableName == name)) := by
  by_cases hname : name ∈ tableNames (counted rules server)
  · have hlookup := List.lookup_graph
      (fun name => Tally.ofRules ((counted rules server).filter (·.tableName == name))) hname
    simpa [under, ofRules, counted] using congrArg (Option.getD · 0) hlookup
  · have habsent : (ofRules rules server).byTable.lookup name = none := by
      rw [List.lookup_eq_none_iff]
      rintro ⟨name', tally⟩ hmem
      obtain ⟨name'', hname'', heq⟩ := List.mem_map.mp hmem
      obtain ⟨rfl, -⟩ := Prod.mk.inj heq
      exact bne_iff_ne.mpr fun h => hname (h ▸ hname'')
    have hnone : (counted rules server).filter (·.tableName == name) = [] := by
      rw [List.filter_eq_nil_iff]
      intro r hr hrname
      refine hname (mem_ascending.mpr (List.mem_append_right _ ?_))
      exact List.mem_map.mpr ⟨r, hr, beq_iff_eq.mp hrname⟩
    rw [under, habsent, hnone]
    rfl

theorem byTable_ofRules (rules : List Rule) (server : Option String) :
    (ofRules rules server).byTable = (ofRules rules server).names.map fun name =>
      (name, .ofRules ((counted rules server).filter (·.tableName == name))) := by
  simp [names, ofRules, counted, Function.comp_def]

theorem ofRules_congr {rules rules' : List Rule} {server server' : Option String}
    (h : counted rules server = counted rules' server') :
    ofRules rules server = ofRules rules' server' := by
  unfold counted at h
  rw [ofRules, ofRules, h]

theorem ofRules_perm {rules rules' : List Rule} (h : rules.Perm rules') (server : Option String) :
    ofRules rules server = ofRules rules' server := by
  have hcounted : (counted rules server).Perm (counted rules' server) := h.filter _
  have hnames : (ofRules rules server).names = (ofRules rules' server).names := by
    rw [names_ofRules, names_ofRules]
    exact ascending_congr fun name => ((hcounted.map _).append_left _).mem_iff
  have htally : ∀ name, Tally.ofRules ((counted rules server).filter (·.tableName == name)) =
      .ofRules ((counted rules' server).filter (·.tableName == name)) := fun name =>
    Tally.ofRules_perm (hcounted.filter _)
  have hbyTable : (ofRules rules server).byTable = (ofRules rules' server).byTable := by
    simp only [byTable_ofRules, hnames, htally]
  exact Census.mk.injEq .. ▸ ⟨Tally.ofRules_perm hcounted, hbyTable⟩

/-- Rules that are counted together are counted name by name. -/
theorem ofRules_append (rules more : List Rule) (server : Option String) :
    ofRules (rules ++ more) server = ofRules rules server + ofRules more server := by
  have hcounted : counted (rules ++ more) server = counted rules server ++ counted more server :=
    List.filter_append ..
  have hnames : (ofRules (rules ++ more) server).names =
      ascending ((ofRules rules server).names ++ (ofRules more server).names) := by
    rw [names_ofRules]
    apply ascending_congr
    intro name
    simp only [names_ofRules, List.mem_append, mem_ascending, hcounted, List.map_append]
    tauto
  have hconfigs : (ofRules (rules ++ more) server).configs =
      (ofRules rules server).configs + (ofRules more server).configs :=
    (congrArg Tally.ofRules hcounted).trans (Tally.ofRules_append _ _)
  have hbyTable : (ofRules (rules ++ more) server).byTable =
      (ofRules rules server + ofRules more server).byTable := by
    rw [byTable_ofRules, hnames]
    apply List.map_congr_left
    intro name _
    rw [hcounted, List.filter_append, Tally.ofRules_append, under_ofRules, under_ofRules]
  exact Census.mk.injEq .. ▸ ⟨hconfigs, hbyTable⟩

theorem ofRules_flatMap {α : Type} (members : List α) (rulesOf : α → List Rule)
    (server : Option String) : ofRules (members.flatMap rulesOf) server =
      (members.map fun a => ofRules (rulesOf a) server).sum := by
  induction members with
  | nil => exact ofRules_congr rfl
  | cons a members ih => rw [List.flatMap_cons, ofRules_append, ih, List.map_cons, List.sum_cons]

/-- The tallies by table make up the whole. -/
theorem sum_byTable (rules : List Rule) (server : Option String) :
    ((ofRules rules server).byTable.map Prod.snd).sum = (ofRules rules server).configs := by
  have hnames : (ofRules rules server).names.Nodup :=
    names_ofRules rules server ▸ (pairwise_ascending _).imp fun hlt heq =>
      absurd (heq ▸ hlt) (String.lt_irrefl _)
  rw [byTable_ofRules, List.map_map]
  exact Tally.sum_fibers Rule.tableName hnames fun r hr =>
    mem_names_ofRules.mpr (.inr ⟨r, hr, rfl⟩)

/-- A rule is counted once, and under one name alone. -/
theorem ofRules_singleton (r : Rule) :
    (ofRules [r] none).configs = .one r ∧
      ∀ name, (ofRules [r] none).under name = if name = r.tableName then .one r else 0 := by
  have hcounted : counted [r] none = [r] := rfl
  refine ⟨Tally.ofRules_singleton r, fun name => ?_⟩
  rw [under_ofRules, hcounted]
  by_cases hname : name = r.tableName
  · simp [hname, Tally.ofRules_singleton]
  · simp [hname, Ne.symm hname, Tally.ofRules_nil]

/-- What holds of the census of some rules, of one server or of all. -/
structure Conserves (rules : List Rule) (server : Option String) : Prop where
  total : (ofRules rules server).configs.total =
    (ofRules rules server).configs.enabled + (ofRules rules server).configs.disabled
  disabled : (ofRules rules server).configs.disabled = (counted rules server).countP (!·.enabled)
  byTable : ((ofRules rules server).byTable.map Prod.snd).sum = (ofRules rules server).configs
  ascending : (ofRules rules server).names.Pairwise (· < ·)
  tables : ∀ t : Table, t.name ∈ (ofRules rules server).names
  /-- Each rule is counted once. -/
  single : ofRules rules server = ((counted rules server).map fun r => ofRules [r] none).sum
  anyOrder : ∀ {rules' : List Rule}, rules'.Perm rules → ofRules rules' server = ofRules rules server
  together : ∀ more, ofRules (rules ++ more) server = ofRules rules server + ofRules more server

theorem conserves (rules : List Rule) (server : Option String) : Conserves rules server where
  total := Tally.total_ofRules _
  disabled := Tally.disabled_ofRules _
  byTable := sum_byTable rules server
  ascending := by
    rw [names_ofRules]
    exact pairwise_ascending _
  tables t := by
    have ht : t ∈ Table.all := by cases t <;> decide
    exact mem_names_ofRules.mpr (.inl (List.mem_map_of_mem ht))
  single := by
    have hall : counted (counted rules server) none = counted rules server :=
      List.filter_eq_self.mpr fun _ _ => rfl
    rw [← ofRules_congr hall, ← ofRules_flatMap]
    simp
  anyOrder hperm := ofRules_perm hperm server
  together more := ofRules_append rules more server

end Census

/-- A rule is counted under the table of its command. -/
theorem Rule.tableName_of_compile {r : Rule} {c : Command} (h : r.compile = .ok c) :
    r.tableName = c.table.name := by
  rw [tableName, (compile_ok h).1]
  rfl

namespace Inventory

/-- The rules of one server among those of several. -/
theorem filter_flatMap_server {servers : List String} (hservers : servers.Nodup)
    {rulesOf : String → List Rule} (howned : ∀ server, ∀ r ∈ rulesOf server, r.server = server)
    {server : String} (h : server ∈ servers) :
    (servers.flatMap rulesOf).filter (·.server == server) = rulesOf server := by
  have hown : ∀ server', (rulesOf server').filter (·.server == server) =
      if server' = server then rulesOf server' else [] := by
    intro server'
    split
    · next heq => exact List.filter_eq_self.mpr fun r hr => by simp [howned server' r hr, heq]
    · next hne => exact List.filter_eq_nil_iff.mpr fun r hr => by simp [howned server' r hr, hne]
  induction servers with
  | nil => cases h
  | cons server' servers ih =>
    obtain ⟨hnew, hrest⟩ := List.nodup_cons.mp hservers
    rw [List.flatMap_cons, List.filter_append, hown]
    by_cases heq : server' = server
    · subst heq
      have hnone : (servers.flatMap rulesOf).filter (·.server == server') = [] := by
        rw [List.filter_eq_nil_iff]
        intro r hr hserver
        obtain ⟨other, hother, hmem⟩ := List.mem_flatMap.mp hr
        exact hnew (((howned other r hmem).symm.trans (beq_iff_eq.mp hserver)) ▸ hother)
      rw [if_pos rfl, hnone, List.append_nil]
    · rw [if_neg heq, List.nil_append, ih hrest ((List.mem_cons.mp h).resolve_left (Ne.symm heq))]

namespace Sound
variable {inv : Inventory} (hinv : inv.Sound)
include hinv

/-- The rules of a server among those of all. -/
theorem filter_allRules {server : String} {rules : List Rule} (h : inv.rulesFor server = .ok rules) :
    inv.allRules.filter (·.server == server) = rules := by
  have howned : ∀ server, ∀ r ∈ Rule.inOrder ((inv.shelf? server).getD []), r.server = server := by
    intro server r hr
    cases hshelf : inv.shelf? server with
    | none => simp [hshelf, Rule.inOrder] at hr
    | some rules => exact hinv.owned hshelf r (by simpa [hshelf] using hr)
  have hnodup : inv.servers.Nodup := (List.mergeSort_perm _ _).nodup_iff.mpr hinv.servers
  unfold rulesFor at h
  split at h
  · cases h
  · next kept hshelf =>
    have hknown : server ∈ inv.servers := by
      rw [mem_servers_iff, holdings, hshelf]
      rfl
    rw [allRules, filter_flatMap_server hnodup howned hknown, hshelf]
    exact Except.ok.inj h

end Sound

end Inventory

namespace Rebuild.State
variable {s : State}

/-- The census of a server is that of its rules, and fails as they do where it is not known. -/
theorem census_some (hinv : s.inventory.Sound) (server : String) :
    s.census (some server) = (s.rulesFor server).map (Census.ofRules · none) := by
  have hcontains := s.inventory.contains_eq_isSome server
  cases hrules : s.inventory.rulesFor server with
  | error e =>
    unfold Inventory.rulesFor at hrules
    split at hrules
    · next hshelf =>
      obtain rfl := Except.error.inj hrules
      simp [census, rulesFor, Inventory.rulesFor, hcontains, hshelf, Except.map]
    · cases hrules
  | ok rules =>
    have hcounted : Census.counted s.inventory.allRules (some server) =
        Census.counted rules none := by
      have hfilter := hinv.filter_allRules hrules
      have hall : Census.counted rules none = rules := List.filter_eq_self.mpr fun _ _ => rfl
      rw [hall, ← hfilter]
      rfl
    have hknown : s.inventory.contains server = true := by
      rw [hcontains]
      unfold Inventory.rulesFor at hrules
      split at hrules
      · cases hrules
      · next hshelf => simp [hshelf]
    rw [census, if_pos hknown, Census.ofRules_congr hcounted, rulesFor, hrules, Except.map]

/-- The census of all is the sum of those of the servers. -/
theorem census_none (hinv : s.inventory.Sound) :
    ∃ censuses, s.inventory.servers.mapM (fun server => s.census (some server)) = .ok censuses ∧
      s.census none = .ok censuses.sum := by
  have heach : ∀ server ∈ s.inventory.servers, s.census (some server) =
      .ok (.ofRules (Rule.inOrder ((s.inventory.shelf? server).getD [])) none) := by
    intro server hserver
    obtain ⟨kept, hkept⟩ := Option.isSome_iff_exists.mp ((s.inventory.mem_servers_iff server).mp hserver)
    obtain ⟨rules, hrules, -⟩ := Option.map_eq_some_iff.mp hkept
    rw [census_some hinv, rulesFor, Inventory.rulesFor, hrules]
    rfl
  exact ⟨_, mapM_ok heach, congrArg Except.ok (Census.ofRules_flatMap ..)⟩

end Rebuild.State

/-- The figures of every census add up, whatever the rules are and whichever are counted: the enabled
and the disabled ones make up the whole, and so do the tallies by table. Each rule is counted once,
under the table of its command, or under the name it gives, trimmed, where that is no table. So the
census of all the rules of an inventory is the sum of those of its servers, each of which is that of
the rules that are listed for the server. -/
theorem Census.statistics_add_up :
    (∀ rules server, Conserves rules server) ∧
    (∀ r, (ofRules [r] none).configs = .one r ∧
      ∀ name, (ofRules [r] none).under name = if name = r.tableName then .one r else 0) ∧
    (∀ (r : Rule) t, Table.parse? r.table = some t → r.tableName = t.name) ∧
    (∀ (r : Rule) c, r.compile = .ok c → r.tableName = c.table.name) ∧
    (∀ r : Rule, Table.parse? r.table = none → r.tableName = Text.trim r.table) ∧
    ∀ (s : Rebuild.State) (edits : List Inventory.Edit), s.inventory = .ofEdits edits →
      (∃ censuses, s.inventory.servers.mapM (fun server => s.census (some server)) = .ok censuses ∧
        s.census none = .ok censuses.sum) ∧
      ∀ server, s.census (some server) = (s.rulesFor server).map (ofRules · none) := by
  refine ⟨conserves, ofRules_singleton, fun r t ht => ?_, fun r c hc => r.tableName_of_compile hc,
    fun r hr => ?_, fun s edits hs => ?_⟩
  · rw [Rule.tableName, ht]
    rfl
  · rw [Rule.tableName, hr]
    rfl
  · have hinv : s.inventory.Sound := hs ▸ Inventory.sound_ofEdits edits
    exact ⟨Rebuild.State.census_none hinv, Rebuild.State.census_some hinv⟩

/-- A rule of an unknown table and one whose table is spelled in capitals, on two servers. -/
theorem Census.statistics_add_up_mixed :
    let unknown : Rule := { id := .number 1, server := "web", table := " NFT ", chain := "INPUT",
                            action := "DROP", enabled := false }
    let forward : Rule := { id := .text "a", server := "db", table := "Nat", chain := "PREROUTING",
                            action := "DNAT" }
    let s : Rebuild.State := { inventory := .ofEdits [.upsert unknown, .upsert forward] }
    unknown.tableName = "NFT" ∧ forward.tableName = "nat" ∧
      ofRules [forward, unknown] none = ofRules [unknown, forward] none ∧
      (∃ censuses, s.inventory.servers.mapM (fun server => s.census (some server)) = .ok censuses ∧
        s.census none = .ok censuses.sum) ∧
      s.census (some "web") = .ok (ofRules [unknown] none) ∧
      s.census (some "ftp") = .error (.notFound .server "ftp") := by
  intro unknown forward s
  obtain ⟨hconserves, -, -, hcompiled, hraw, hstate⟩ := statistics_add_up
  obtain ⟨hall, hserver⟩ := hstate s [.upsert unknown, .upsert forward] rfl
  have hcommand : forward.compile = .ok
      { table := .nat, chain := .prerouting, protocol := .all, source := none, sourcePort := none,
        destination := none, destinationPort := none, interface := none, action := .dnat } := by
    decide +kernel
  have hweb : s.rulesFor "web" = .ok [unknown] := by decide +kernel
  have hftp : s.rulesFor "ftp" = .error (.notFound .server "ftp") := by decide +kernel
  exact ⟨(hraw unknown (by decide +kernel)).trans (by decide +kernel),
    hcompiled forward _ hcommand, (hconserves [unknown, forward] none).anyOrder (.swap ..), hall,
    (hserver "web").trans (by rw [hweb]; rfl), (hserver "ftp").trans (by rw [hftp]; rfl)⟩

end FirewallRollout
