import FirewallRollout.Proofs.Rebuild.Selection
import FirewallRollout.Proofs.Text.Octets
import Mathlib.Data.Prod.Lex
import Mathlib.Data.Sum.Order

/-!
# The order of a script

A script is the same whatever order the rules of its server are given in, and so is the fault when one
of them does not compile: it is the first fault in script order. The lines are those of the rules that
are taken, by priority and then by identifier, numbers by value before texts by their octets.
-/
namespace FirewallRollout

/-- What an identifier is ordered by: a number by its value, and after all numbers a text by its
octets. -/
def RuleId.key : RuleId → Int ⊕ₗ List UInt8
  | number n => Sum.inlₗ n.toInt
  | text s => Sum.inrₗ (Text.Utf8.encode s)

theorem RuleId.Before.key_lt {a b : RuleId} (h : a.Before b) : a.key < b.key := by
  cases h with
  | numbers less => exact Sum.Lex.inl_lt_inl_iff.mpr less
  | kinds n s => exact Sum.Lex.inl_lt_inr _ _
  | texts less => exact Sum.Lex.inr_lt_inr_iff.mpr (Text.Utf8.encode_lt less)

namespace Script

/-- What a line is ordered by: its priority, and then its identifier. -/
def Line.key (l : Line) : Int ×ₗ (Int ⊕ₗ List UInt8) := toLex (l.priority.toInt, l.id.key)

theorem key_lt_of_before {l l' : Line} {r r' : Rule} (hl : l.Shows r) (hl' : l'.Shows r')
    (h : r.Before r') : l.key < l'.key := by
  rw [Prod.Lex.lt_iff]
  change l.priority.toInt < l'.priority.toInt ∨
    l.priority.toInt = l'.priority.toInt ∧ l.id.key < l'.id.key
  rw [hl.id, hl'.id, hl.priority, hl'.priority]
  exact h.imp_right fun ⟨heq, hid⟩ => ⟨by rw [heq], hid.key_lt⟩

/-- The rules that a script takes, in any order. -/
theorem selected_perm (rules : List Rule) (onlyEnabled : Bool) :
    (selected rules onlyEnabled).Perm (rules.filter fun r => !onlyEnabled || r.enabled) :=
  Rule.inOrder_perm _

/-- Rules under identifiers of their own are taken in one order, whatever order they are given in. -/
theorem selected_congr {rules rules' : List Rule} (hperm : rules.Perm rules')
    (hids : (rules.map Rule.id).Nodup) (onlyEnabled : Bool) :
    selected rules onlyEnabled = selected rules' onlyEnabled := by
  have hids' : (rules'.map Rule.id).Nodup := (hperm.map Rule.id).nodup_iff.mp hids
  refine Rule.eq_of_pairwise_before (pairwise_selected hids onlyEnabled)
    (pairwise_selected hids' onlyEnabled) fun r => ?_
  rw [(selected_perm rules onlyEnabled).mem_iff, (selected_perm rules' onlyEnabled).mem_iff,
    (hperm.filter _).mem_iff]

/-- Rules of one server under identifiers of their own make one script, or have one fault, whatever
order they are given in. The lines of the script show the rules that it takes, each of them once, in
strict order. -/
theorem assemble_perm {server : String} {rules rules' : List Rule} (hperm : rules.Perm rules')
    (hserver : ∀ r ∈ rules, r.server = server) (hids : (rules.map Rule.id).Nodup)
    (onlyEnabled : Bool) (format : Format) :
    assemble server rules onlyEnabled format = assemble server rules' onlyEnabled format ∧
    ∀ script, assemble server rules onlyEnabled format = .ok script →
      (∃ taken, taken.Perm (rules.filter fun r => !onlyEnabled || r.enabled) ∧
        List.Forall₂ Line.Shows script.lines taken) ∧
      script.lines.Pairwise fun a b => a.key < b.key := by
  have hnone : ∀ {l : List Rule}, (∀ r ∈ l, r.server = server) →
      l.find? (·.server != server) = none := by
    intro l hl
    simpa [List.find?_eq_none] using hl
  refine ⟨assemble_congr ?_ (selected_congr hperm hids onlyEnabled) format, fun script hscript => ?_⟩
  · rw [hnone hserver, hnone fun r hr => hserver r (hperm.mem_iff.mpr hr)]
  · have hlines := shows_lines hscript
    have hordered := pairwise_selected hids onlyEnabled
    refine ⟨⟨selected rules onlyEnabled, selected_perm rules onlyEnabled, hlines⟩, ?_⟩
    refine pairwise_of_matched ?_ hlines hordered
    intro l l' r r' hl hl' hbefore
    exact key_lt_of_before hl hl' hbefore

/-- Where priorities are the same, numbers come by value and texts after them. -/
theorem assemble_perm_mixed :
    let rule (id : RuleId) (priority : Int64) : Rule :=
      { id, server := "web", chain := "INPUT", action := "DROP", priority }
    let rules := [rule (.text "10") 5, rule (.number 3) 5, rule (.text "a") 0, rule (.number (-1)) 5]
    let rules' := [rule (.text "a") 0, rule (.number (-1)) 5, rule (.number 3) 5, rule (.text "10") 5]
    rules.Perm rules' ∧
      assemble "web" rules true .plain = assemble "web" rules' true .plain ∧
      ∃ script, assemble "web" rules true .plain = .ok script ∧
        script.lines.map Line.id = [.text "a", .number (-1), .number 3, .text "10"] ∧
        script.lines.Pairwise fun a b => a.key < b.key := by
  intro rule rules rules'
  have hperm : rules.Perm rules' := by decide
  have hserver : ∀ r ∈ rules, r.server = "web" := by decide
  obtain ⟨hsame, hordered⟩ := assemble_perm hperm hserver (by decide) true .plain
  have hsorted : selected rules' true = rules' := List.mergeSort_of_pairwise (by decide)
  have hlines : (rules'.mapM lineOf).map (·.map Line.id) = .ok (rules'.map Rule.id) := by
    decide +kernel
  obtain ⟨lines, hlines, hids⟩ := map_ok hlines
  have hscript : assemble "web" rules true .plain =
      .ok { server := "web", format := .plain, onlyEnabled := true, lines } := by
    rw [hsame, assemble_eq_ok_iff, hsorted]
    exact ⟨by decide, lines, hlines, rfl⟩
  exact ⟨hperm, hsame, _, hscript, hids, (hordered _ hscript).2⟩

end Script
end FirewallRollout
