import FirewallRollout.Proofs.Inventory.Reading

/-!
# The rules that a rebuild takes

The script of a rebuild is made of the enabled rules that are kept for its server at that time, in
script order. There is one if the server is known and these rules compile; the disabled ones have no
say in it.
-/
namespace FirewallRollout

/-- The enabled rules that are kept for a server, in script order. -/
structure Inventory.Holdings.Enabled (held : Inventory.Holdings) (server : String)
    (rules : List Rule) : Prop where
  ordered : rules.Pairwise Rule.Before
  mem : ∀ r, r ∈ rules ↔ held.under server r.id = some r ∧ r.enabled = true

/-- The texts are the commands of the rules, one by one. -/
def Rule.Compiled (rules : List Rule) (texts : List String) : Prop :=
  List.Forall₂ (fun r text => ∃ c, r.compile = .ok c ∧ c.text = text) rules texts

namespace Script

/-- The enabled rules among rules under identifiers of their own. -/
theorem mem_selected {rules : List Rule} {r : Rule} :
    r ∈ selected rules true ↔ r ∈ rules ∧ r.enabled = true := by
  simp [selected]

theorem pairwise_selected {rules : List Rule} (h : (rules.map Rule.id).Nodup) (onlyEnabled : Bool) :
    (selected rules onlyEnabled).Pairwise Rule.Before :=
  Rule.pairwise_inOrder (h.sublist (List.filter_sublist.map Rule.id))

/-- The commands of a script are those of the selected rules. -/
theorem compiled_commands {server : String} {rules : List Rule} {onlyEnabled : Bool}
    {format : Format} {script : Script} (h : assemble server rules onlyEnabled format = .ok script) :
    Rule.Compiled (selected rules onlyEnabled) script.commands := by
  rw [Rule.Compiled, commands, List.forall₂_map_right_iff]
  exact (shows_lines h).flip.imp fun r line hline => ⟨line.command, hline.command, rfl⟩

end Script

theorem Rule.Compiled.length_eq {rules : List Rule} {texts : List String} (h : Compiled rules texts) :
    texts.length = rules.length :=
  (List.Forall₂.length_eq h).symm

theorem Rule.Compiled.compile {rules : List Rule} {texts : List String} (h : Compiled rules texts)
    {r : Rule} (hr : r ∈ rules) : ∃ c, r.compile = .ok c := by
  obtain ⟨_, _, c, hc, -⟩ := exists_match h hr
  exact ⟨c, hc⟩

theorem Inventory.Holdings.Enabled.unique {held : Inventory.Holdings} {server : String}
    {rules rules' : List Rule} (h : held.Enabled server rules) (h' : held.Enabled server rules') :
    rules = rules' :=
  Rule.eq_of_pairwise_before h.ordered h'.ordered fun r => (h.mem r).trans (h'.mem r).symm

namespace Rebuild.State
variable {s : State} {held : Inventory.Holdings} {server : String}

/-- A script is made of the enabled rules of its server, whatever else is kept. -/
theorem exists_enabled (hs : s.inventory.Presents held) {format : Script.Format} {script : Script}
    (h : s.scriptFor server true format = .ok script) :
    ∃ rules, held.Enabled server rules ∧ Rule.Compiled rules script.commands := by
  obtain ⟨rules, hrules, hscript⟩ := scriptFor_eq_ok_iff.mp h
  cases hserver : held server with
  | none =>
    rw [rulesFor, hs.unknown hserver] at hrules
    cases hrules
  | some kept =>
    obtain ⟨rules', hrules', -, hids, hmem⟩ := hs.known hserver
    obtain rfl := Except.ok.inj (hrules.symm.trans hrules')
    refine ⟨Script.selected rules true, ⟨Script.pairwise_selected hids true, fun r => ?_⟩,
      Script.compiled_commands hscript⟩
    rw [Script.mem_selected, hmem, Inventory.Holdings.under, hserver, Option.getD_some]

/-- The number of lines that a rebuild is registered with is that of the enabled rules. -/
theorem exists_enabled_counted (hs : s.inventory.Presents held) {script : Script} {total : UInt32}
    (h : s.scriptFor server true .plain = .ok script)
    (htotal : Text.word32? script.lines.length = some total) :
    ∃ rules, held.Enabled server rules ∧ Rule.Compiled rules script.commands ∧
      total.toNat = rules.length := by
  obtain ⟨rules, henabled, hcompiled⟩ := exists_enabled hs h
  refine ⟨rules, henabled, hcompiled, ?_⟩
  rw [← hcompiled.length_eq, Script.commands, List.length_map]
  exact Text.toNat_of_word32? htotal

/-- A server with a script is known. -/
theorem isSome_of_scriptFor (hs : s.inventory.Presents held) {onlyEnabled : Bool}
    {format : Script.Format} {script : Script}
    (h : s.scriptFor server onlyEnabled format = .ok script) : (held server).isSome := by
  obtain ⟨rules, hrules, -⟩ := scriptFor_eq_ok_iff.mp h
  cases hserver : held server with
  | some kept => rfl
  | none =>
    rw [rulesFor, hs.unknown hserver] at hrules
    cases hrules

/-- There is a script for a known server whose enabled rules compile. -/
theorem exists_scriptFor (hs : s.inventory.Presents held) (hknown : (held server).isSome)
    (hcompiles : ∀ r, held.under server r.id = some r → r.enabled = true → ∃ c, r.compile = .ok c)
    (format : Script.Format) : ∃ script, s.scriptFor server true format = .ok script := by
  obtain ⟨kept, hserver⟩ := Option.isSome_iff_exists.mp hknown
  obtain ⟨rules, hrules, -, -, hmem⟩ := hs.known hserver
  cases hscript : Script.assemble server rules true format with
  | ok script => exact ⟨script, scriptFor_eq_ok_iff.mpr ⟨rules, hrules, hscript⟩⟩
  | error fault =>
    rcases Script.assemble_error hscript with ⟨r, hr, hother⟩ | ⟨r, hr, f, hf, -⟩
    · exact absurd (hs.server_of_rulesFor hrules hr) hother
    · obtain ⟨hr, henabled⟩ := Script.mem_selected.mp hr
      have hkept : held.under server r.id = some r := by
        rw [Inventory.Holdings.under, hserver, Option.getD_some]
        exact (hmem r).mp hr
      obtain ⟨c, hc⟩ := hcompiles r hkept henabled
      rw [hf] at hc
      cases hc

end Rebuild.State
end FirewallRollout
