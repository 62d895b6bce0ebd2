import FirewallRollout.Proofs.Inventory.Order
import FirewallRollout.Proofs.Script.Assembly
import Mathlib.Logic.Relation

/-!
# Previews

A preview that shows the disabled rules too tells what a rebuild would do: there is a script without
them, and its lines are the enabled ones of the preview. What is done to the disabled rules of a server
is not seen in the script without them, nor in the fault when there is none.
-/
namespace FirewallRollout.Script

/-- One thing that is done to the disabled rules among the rules of a server. -/
inductive DisabledEdit (server : String) : List Rule → List Rule → Prop
  | add (r : Rule) (before after : List Rule) (own : r.server = server) (off : r.enabled = false) :
      DisabledEdit server (before ++ after) (before ++ r :: after)
  | remove (r : Rule) (before after : List Rule) (own : r.server = server)
      (off : r.enabled = false) : DisabledEdit server (before ++ r :: after) (before ++ after)
  | change (r r' : Rule) (before after : List Rule) (own : r.server = server)
      (off : r.enabled = false) (own' : r'.server = server) (off' : r'.enabled = false) :
      DisabledEdit server (before ++ r :: after) (before ++ r' :: after)
  | swap (r r' : Rule) (before between after : List Rule) (own : r.server = server)
      (off : r.enabled = false) (own' : r'.server = server) (off' : r'.enabled = false) :
      DisabledEdit server (before ++ r :: (between ++ r' :: after))
        (before ++ r' :: (between ++ r :: after))

/-- The rules that have a say in what is assembled without the disabled ones. -/
def decisive (server : String) (rules : List Rule) : List Rule :=
  rules.filter fun r => r.enabled || r.server != server

/-- A disabled rule of the server has no say, wherever it stands. -/
theorem decisive_append_cons {server : String} {r : Rule} (own : r.server = server)
    (off : r.enabled = false) (before after : List Rule) :
    decisive server (before ++ r :: after) = decisive server (before ++ after) := by
  simp [decisive, own, off]

theorem DisabledEdit.decisive_eq {server : String} {rules rules' : List Rule}
    (h : DisabledEdit server rules rules') : decisive server rules = decisive server rules' := by
  cases h with
  | add r before after own off => exact (decisive_append_cons own off before after).symm
  | remove r before after own off => exact decisive_append_cons own off before after
  | change r r' before after own off own' off' =>
    rw [decisive_append_cons own off, decisive_append_cons own' off']
  | swap r r' before between after own off own' off' =>
    rw [decisive_append_cons own off, decisive_append_cons own' off', ← List.append_assoc,
      decisive_append_cons own' off', ← List.append_assoc, decisive_append_cons own off]

/-- The decisive rules decide what is assembled without the disabled ones. -/
theorem assemble_of_decisive {server : String} {rules rules' : List Rule}
    (h : decisive server rules = decisive server rules') (format : Format) :
    assemble server rules true format = assemble server rules' true format := by
  have hforeign : ∀ l : List Rule,
      l.find? (·.server != server) = (decisive server l).find? (·.server != server) := by
    intro l
    rw [decisive, List.find?_filter]
    congr 1
    funext r
    by_cases hr : r.server = server <;> simp [hr]
  have hselected : ∀ l : List Rule,
      selected l true = Rule.inOrder ((decisive server l).filter (·.enabled)) := by
    intro l
    rw [selected, decisive, List.filter_filter]
    congr 2
    funext r
    cases r.enabled <;> simp
  refine assemble_congr ?_ ?_ format
  · rw [hforeign rules, hforeign rules', h]
  · rw [hselected rules, hselected rules', h]

/-- Whatever is done to the disabled rules of a server. -/
theorem decisive_of_edits {server : String} {rules rules' : List Rule}
    (h : Relation.ReflTransGen (DisabledEdit server) rules rules') :
    decisive server rules = decisive server rules' := by
  induction h with
  | refl => rfl
  | tail _ hedit ih => exact ih.trans hedit.decisive_eq

/-- The enabled rules in script order are those that are enabled among all rules in script order. -/
theorem selected_true (rules : List Rule) :
    selected rules true = (selected rules false).filter (·.enabled) := by
  unfold selected
  rw [Rule.filter_inOrder, List.filter_filter]
  simp

/-- The lines of a preview that are enabled are the lines of the script without disabled rules. -/
theorem assemble_enabled {server : String} {rules : List Rule} {format : Format} {preview : Script}
    (h : assemble server rules false format = .ok preview) (format' : Format) :
    assemble server rules true format' = .ok
      { server, format := format', onlyEnabled := true, lines := preview.lines.filter (·.enabled) } := by
  obtain ⟨hown, lines, hlines, rfl⟩ := assemble_eq_ok_iff.mp h
  rw [assemble_eq_ok_iff]
  refine ⟨hown, lines.filter (·.enabled), ?_, rfl⟩
  rw [selected_true]
  exact mapM_filter_ok (fun hline => (shows_of_lineOf hline).enabled) hlines

/-- Where there is a preview, there is a script without the disabled rules, and its lines are the
enabled ones of the preview. Whatever is done to the disabled rules of the server, without them the
same is assembled, or fails with the same fault. -/
theorem previews_agree (server : String) (rules : List Rule) (format format' : Format) :
    (∀ preview, assemble server rules false format = .ok preview →
      ∃ script, assemble server rules true format' = .ok script ∧
        script.lines = preview.lines.filter (·.enabled)) ∧
    ∀ rules', Relation.ReflTransGen (DisabledEdit server) rules rules' →
      assemble server rules' true format' = assemble server rules true format' := by
  refine ⟨fun preview hpreview => ?_, fun rules' hedits => ?_⟩
  · exact ⟨_, assemble_enabled hpreview format', rfl⟩
  · exact (assemble_of_decisive (decisive_of_edits hedits) format').symm

/-- Two rules under one identifier, one of them disabled. A disabled rule that does not compile is put
before them and then between them. -/
theorem previews_agree_broken :
    let on : Rule := { id := .number 1, server := "web", chain := "INPUT", action := "DROP" }
    let off : Rule := { on with action := "ACCEPT", enabled := false }
    let broken : Rule := { on with action := "JUMP", enabled := false }
    ∃ preview script, assemble "web" [off, on] false .plain = .ok preview ∧
      preview.lines.map Line.enabled = [false, true] ∧
      assemble "web" [off, on] true .bash = .ok script ∧
      script.lines = preview.lines.filter (·.enabled) ∧
      assemble "web" [off, broken, on] true .bash = .ok script ∧
      broken.compile.isOk = false := by
  intro on off broken
  have hsorted : selected [off, on] false = [off, on] := List.mergeSort_of_pairwise (by decide)
  have hlines : ([off, on].mapM lineOf).map (·.map Line.enabled) = .ok [false, true] := by
    decide +kernel
  obtain ⟨lines, hlines, henabled⟩ := map_ok hlines
  have hpreview : assemble "web" [off, on] false .plain =
      .ok { server := "web", format := .plain, onlyEnabled := false, lines } := by
    rw [assemble_eq_ok_iff, hsorted]
    exact ⟨by decide, lines, hlines, rfl⟩
  have hedits : Relation.ReflTransGen (DisabledEdit "web") [off, on] [off, broken, on] :=
    .tail (.single (.add broken [] [off, on] rfl rfl)) (.swap broken off [] [] [on] rfl rfl rfl rfl)
  obtain ⟨hagree, hkept⟩ := previews_agree "web" [off, on] .plain .bash
  obtain ⟨script, hscript, hsame⟩ := hagree _ hpreview
  refine ⟨_, script, hpreview, henabled, hscript, hsame, (hkept _ hedits).trans hscript, ?_⟩
  decide +kernel

end FirewallRollout.Script
