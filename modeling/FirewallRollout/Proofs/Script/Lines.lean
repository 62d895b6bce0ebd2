import FirewallRollout.Proofs.Script.Assembly
import FirewallRollout.Proofs.Text.Pieces

/-!
# What the text of a script runs

A shell passes over the empty lines of a text and over those that begin with `#`. Of an assembled
script it runs the flushes and the commands in order, and before them whatever the server's
identifier holds after a line feed of its own: the banner takes the identifier as it is.
-/
namespace FirewallRollout

theorem Command.head?_text (c : Command) : c.text.toList.head? = some 'i' := by
  rw [Command.text, Command.words, String.toList_intercalate]
  cases c.options.flatMap fun o => [o.1, o.2] <;> simp [List.intercalate_cons_cons]

namespace Script

/-- Whether a shell runs a line: it has a first character, and that begins no comment. -/
def isExecutable (line : String) : Bool := line.toList.head?.any (· != '#')

/-- The lines of a text that a shell runs. -/
def executableLines (text : String) : List String := (Text.pieces '\n' text).filter isExecutable

/-- The lines after the first one of a server's identifier that a shell runs. -/
def smuggledLines (server : String) : List String :=
  (Text.pieces '\n' server).tail.filter isExecutable

/-- The lines that a list of lines brings in, some of which may have line feeds of their own. -/
theorem executableLines_join (lines : List String) :
    executableLines (String.join (lines.map (· ++ "\n"))) = lines.flatMap executableLines := by
  unfold executableLines
  rw [show "\n" = String.singleton '\n' from rfl, Text.pieces_join_closed, List.filter_append,
    List.filter_flatMap]
  simp [isExecutable]

/-- A comment brings in what its text holds after a line feed. -/
theorem executableLines_comment (s : String) (t : List Char) (hs : s.toList = '#' :: t)
    (hfeed : '\n' ∉ t) (rest : String) : executableLines (s ++ rest) = smuggledLines rest := by
  have htext : s ++ rest = .ofList ('#' :: (t ++ rest.toList)) := by
    rw [← String.toList_inj, String.toList_append, hs]
    simp
  obtain ⟨first, hpieces⟩ := Text.head?_pieces_cons (by decide : '#' ≠ '\n') (t ++ rest.toList)
  rw [executableLines, smuggledLines, htext, hpieces, Text.tail_pieces_append hfeed,
    String.ofList_toList, List.filter_cons_of_neg (by simp [isExecutable])]

theorem executableLines_of_notMem {line : String} (hfeed : '\n' ∉ line.toList)
    (hrun : isExecutable line = true) : executableLines line = [line] := by
  simp [executableLines, Text.pieces_of_notMem hfeed, hrun]

theorem smuggledLines_of_notMem {server : String} (h : '\n' ∉ server.toList) :
    smuggledLines server = [] := by
  simp [smuggledLines, Text.pieces_of_notMem h]

theorem executableLines_flushes : flushes.flatMap executableLines = flushes := by decide

theorem executableLines_serverBanner (s : Script) :
    executableLines s!"# iptables rules for server {s.server}" = smuggledLines s.server :=
  executableLines_comment "# iptables rules for server " _ rfl (by decide) s.server

/-- The second line of the banner is one comment. -/
theorem executableLines_countBanner (s : Script) :
    executableLines s!"# {s.lines.length} rule(s), {s.selection}" = [] := by
  have hcount : '\n' ∉ (toString s.lines.length).toList := by
    intro hfeed
    have hchar := (isArgument_iff.mp (isArgument_toString s.lines.length)).2 '\n' hfeed
    exact absurd hchar (by decide)
  have hselection : '\n' ∉ s.selection.toList := by
    unfold selection
    split <;> decide
  have hline : s!"# {s.lines.length} rule(s), {s.selection}" =
      "# " ++ (toString s.lines.length ++ " rule(s), " ++ s.selection) := by
    rw [← String.append_assoc, ← String.append_assoc]
    rfl
  rw [hline, executableLines_comment "# " _ rfl (by decide)]
  apply smuggledLines_of_notMem
  simpa [hselection] using hcount

/-- What the text of a script runs, when each of its commands is one line to be run. -/
theorem executableLines_text {s : Script}
    (h : ∀ command ∈ s.commands, '\n' ∉ command.toList ∧ isExecutable command = true) :
    executableLines s.text = smuggledLines s.server ++ flushes ++ s.commands := by
  have hcommands : s.commands.flatMap executableLines = s.commands := by
    calc s.commands.flatMap executableLines = s.commands.flatMap fun command => [command] := by
          apply List.flatMap_congr
          intro command hcommand
          exact executableLines_of_notMem (h command hcommand).1 (h command hcommand).2
      _ = s.commands := by simp
  have hblank : executableLines "" = [] := by decide
  have hshebang : executableLines "#!/bin/bash" = [] := by decide
  rw [text, executableLines_join, textLines]
  simp only [List.flatMap_append, List.flatMap_cons, List.flatMap_nil, hcommands,
    executableLines_flushes, executableLines_serverBanner, executableLines_countBanner, hblank]
  split <;> split <;> simp [hblank, hshebang]

/-- The text of an assembled script runs the lines that the server's identifier smuggles in, the
flushes and the commands, in this order. So it runs the flushes and the commands and nothing else
exactly when the identifier smuggles nothing in, as none does without a line feed. -/
theorem executableLines_assembled {server : String} {rules : List Rule} {onlyEnabled : Bool}
    {format : Format} {script : Script}
    (h : assemble server rules onlyEnabled format = .ok script) :
    executableLines script.text = smuggledLines server ++ flushes ++ script.commands ∧
    (executableLines script.text = flushes ++ script.commands ↔ smuggledLines server = []) ∧
    ('\n' ∉ server.toList → executableLines script.text = flushes ++ script.commands) := by
  have hlines : executableLines script.text = smuggledLines server ++ flushes ++ script.commands := by
    rw [← (assemble_ok h).1]
    apply executableLines_text
    intro command hcommand
    obtain ⟨r, -, c, hc, rfl⟩ := compiled_of_mem_commands h hcommand
    exact ⟨Command.newline_notMem_text hc, by simp [isExecutable, Command.head?_text]⟩
  have hiff : executableLines script.text = flushes ++ script.commands ↔
      smuggledLines server = [] := by
    rw [hlines, List.append_assoc, List.append_left_eq_self]
  exact ⟨hlines, hiff, fun hfeed => hiff.mpr (smuggledLines_of_notMem hfeed)⟩

/-- A server without rules, whose identifier has a command for the host in its second line. -/
theorem executableLines_reboot :
    assemble "S1\nreboot" [] true .plain = .ok ⟨"S1\nreboot", .plain, true, []⟩ ∧
    executableLines (Script.text ⟨"S1\nreboot", .plain, true, []⟩) = "reboot" :: flushes := by
  have h : assemble "S1\nreboot" [] true .plain = .ok ⟨"S1\nreboot", .plain, true, []⟩ := by
    simp [assemble, selected, Rule.inOrder, bind, Except.bind, pure, Except.pure]
  exact ⟨h, (executableLines_assembled h).1.trans (by decide)⟩

end Script
end FirewallRollout
