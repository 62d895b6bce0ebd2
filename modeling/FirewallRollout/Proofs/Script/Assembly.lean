import FirewallRollout.Proofs.Rule.Argument
import FirewallRollout.Rebuild.State

/-!
# What a script is made of

A script that was assembled is for the server it was asked for, and its lines are those of the
selected rules in order. Every command of it is that of one of the rules.
-/
namespace FirewallRollout

theorem Text.toNat_of_word32? {n : Nat} {word : UInt32} (h : word32? n = some word) :
    word.toNat = n := by
  unfold word32? at h
  split at h
  · next hrange =>
    rw [Int.toNat_natCast, Bool.and_eq_true, decide_eq_true_eq, decide_eq_true_eq] at hrange
    obtain rfl := Option.some.inj h
    rw [Int.toNat_natCast]
    exact Nat.mod_eq_of_lt hrange.2
  · cases h

namespace Script

/-- A script is assembled exactly from rules of its server of which the selected ones have a line. -/
theorem assemble_eq_ok_iff {server : String} {rules : List Rule} {onlyEnabled : Bool}
    {format : Format} {script : Script} :
    assemble server rules onlyEnabled format = .ok script ↔
      (∀ r ∈ rules, r.server = server) ∧ ∃ lines,
        (selected rules onlyEnabled).mapM lineOf = .ok lines ∧
          script = { server, format, onlyEnabled, lines } := by
  have hown : rules.find? (·.server != server) = none ↔ ∀ r ∈ rules, r.server = server := by
    simp [List.find?_eq_none]
  rw [← hown, assemble]
  cases rules.find? (·.server != server) with
  | some r => simp
  | none =>
    cases (selected rules onlyEnabled).mapM lineOf with
    | error fault => simp [bind, Except.bind]
    | ok lines => simp [bind, Except.bind, eq_comm]

theorem assemble_ok {server : String} {rules : List Rule} {onlyEnabled : Bool} {format : Format}
    {script : Script} (h : assemble server rules onlyEnabled format = .ok script) :
    script.server = server ∧ (selected rules onlyEnabled).mapM lineOf = .ok script.lines := by
  obtain ⟨-, lines, hlines, rfl⟩ := assemble_eq_ok_iff.mp h
  exact ⟨rfl, hlines⟩

/-- What an assembly gives hangs on the first rule of another server and on the selected rules. -/
theorem assemble_congr {server : String} {rules rules' : List Rule} {onlyEnabled : Bool}
    (hforeign : rules.find? (·.server != server) = rules'.find? (·.server != server))
    (hselected : selected rules onlyEnabled = selected rules' onlyEnabled) (format : Format) :
    assemble server rules onlyEnabled format = assemble server rules' onlyEnabled format := by
  unfold assemble
  rw [hforeign, hselected]

/-- A script fails on a rule of another server, or on one that does not compile. -/
theorem assemble_error {server : String} {rules : List Rule} {onlyEnabled : Bool} {format : Format}
    {fault : Fault} (h : assemble server rules onlyEnabled format = .error fault) :
    (∃ r ∈ rules, r.server ≠ server) ∨
      ∃ r ∈ selected rules onlyEnabled, ∃ f, r.compile = .error f ∧ fault = .rule r.id f := by
  unfold assemble at h
  split at h
  · next r hr => exact .inl ⟨r, List.mem_of_find?_eq_some hr, by simpa using List.find?_some hr⟩
  · rcases bind_error h with h | ⟨lines, -, h⟩
    · obtain ⟨r, hr, hline⟩ := mem_of_mapM_error h
      unfold lineOf at hline
      split at hline
      · cases hline
      · next f hf => exact .inr ⟨r, hr, f, hf, (Except.error.inj hline).symm⟩
    · cases h

/-- A line that stands for a rule: what it says of the rule, and the command to which it compiles. -/
structure Line.Shows (l : Line) (r : Rule) : Prop where
  id : l.id = r.id
  priority : l.priority = r.priority
  enabled : l.enabled = r.enabled
  command : r.compile = .ok l.command

theorem shows_of_lineOf {r : Rule} {line : Line} (h : lineOf r = .ok line) : line.Shows r := by
  unfold lineOf at h
  split at h
  · next command hcommand =>
    obtain rfl := Except.ok.inj h
    exact ⟨rfl, rfl, rfl, hcommand⟩
  · cases h

/-- The lines of a script show the rules that it takes, one by one. -/
theorem shows_lines {server : String} {rules : List Rule} {onlyEnabled : Bool} {format : Format}
    {script : Script} (h : assemble server rules onlyEnabled format = .ok script) :
    List.Forall₂ Line.Shows script.lines (selected rules onlyEnabled) :=
  ((forall₂_of_mapM_ok (assemble_ok h).2).imp fun _ _ => shows_of_lineOf).flip

theorem mem_of_mem_selected {rules : List Rule} {onlyEnabled : Bool} {r : Rule}
    (h : r ∈ selected rules onlyEnabled) : r ∈ rules := by
  unfold selected Rule.inOrder at h
  exact (List.mem_filter.mp (List.mem_mergeSort.mp h)).1

/-- Every command of an assembled script is that of one of the rules. -/
theorem compiled_of_mem_commands {server : String} {rules : List Rule} {onlyEnabled : Bool}
    {format : Format} {script : Script} (h : assemble server rules onlyEnabled format = .ok script)
    {command : String} (hcommand : command ∈ script.commands) :
    ∃ r ∈ rules, ∃ c, r.compile = .ok c ∧ c.text = command := by
  obtain ⟨line, hline, rfl⟩ := List.mem_map.mp hcommand
  obtain ⟨r, hr, hlineOf⟩ := mem_of_mapM_ok (assemble_ok h).2 hline
  exact ⟨r, mem_of_mem_selected hr, line.command, (shows_of_lineOf hlineOf).command, rfl⟩

/-- Fewer lines than there are 32-bit words can be counted. -/
theorem exists_total {script : Script} (h : script.lines.length < UInt32.size) :
    ∃ total, Text.word32? script.lines.length = some total := by
  have hword : (0 ≤ (script.lines.length : Int) && (script.lines.length : Int).toNat < UInt32.size) := by
    rw [Int.toNat_natCast, Bool.and_eq_true]
    exact ⟨by simp, decide_eq_true h⟩
  exact ⟨_, if_pos hword⟩

end Script

namespace Rebuild

/-- A script that some rules of the server give, few enough to be counted. -/
def Scripted (server : String) (script : Script) : Prop :=
  ∃ (inventory : Inventory) (total : UInt32),
    State.scriptFor { inventory } server true .plain = .ok script ∧
      Text.word32? script.lines.length = some total

namespace State

/-- The script for a server is assembled from what is listed for it. -/
theorem scriptFor_eq_ok_iff {s : State} {server : String} {onlyEnabled : Bool}
    {format : Script.Format} {script : Script} :
    s.scriptFor server onlyEnabled format = .ok script ↔
      ∃ rules, s.rulesFor server = .ok rules ∧
        Script.assemble server rules onlyEnabled format = .ok script := by
  unfold scriptFor
  cases hrules : s.rulesFor server with
  | error e => simp [bind, Except.bind]
  | ok rules =>
    cases hscript : Script.assemble server rules onlyEnabled format <;>
      simp [hscript, bind, Except.bind]

theorem scriptFor_ok {s : State} {server : String} {onlyEnabled : Bool} {format : Script.Format}
    {script : Script} (h : s.scriptFor server onlyEnabled format = .ok script) :
    ∃ rules, Script.assemble server rules onlyEnabled format = .ok script := by
  obtain ⟨rules, -, hscript⟩ := scriptFor_eq_ok_iff.mp h
  exact ⟨rules, hscript⟩

theorem scripted_of_scriptFor {s : State} {server : String} {script : Script} {total : UInt32}
    (h : s.scriptFor server true .plain = .ok script)
    (hcount : Text.word32? script.lines.length = some total) : Scripted server script :=
  ⟨s.inventory, total, h, hcount⟩

end State

theorem Scripted.server_eq {server : String} {script : Script} (h : Scripted server script) :
    script.server = server := by
  obtain ⟨inventory, total, hscript, -⟩ := h
  obtain ⟨rules, hrules⟩ := State.scriptFor_ok hscript
  exact (Script.assemble_ok hrules).1

end Rebuild
end FirewallRollout
