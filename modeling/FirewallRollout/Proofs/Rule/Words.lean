import FirewallRollout.Proofs.Script.Assembly
import FirewallRollout.Proofs.Text.Pieces

/-!
# Commands as a shell takes them

A shell splits the text of a compiled command at its spaces into the program's name and, two by two,
the option words with their values. No character of it means anything else to the shell. The
commands of every plan are texts of this kind.
-/
namespace FirewallRollout

namespace Command

/-- The option words in the order in which a command has them; it has at most one of the two that
name an interface. -/
def optionWords : List String :=
  ["-t", "-A", "-p", "-s", "--sport", "-d", "--dport", "-i", "-o", "-j", "--to-destination"]

/-- The value of an interface option, which only the chain's own one has. -/
def interfaceValue (c : Command) (flag : String) : Option String :=
  if c.chain.interfaceFlag = some flag then c.interface else none

/-- Every option word with the value that the command has for it, if any. -/
def slots (c : Command) : List (String × Option String) :=
  [("-t", if c.table = .filter then none else some c.table.name), ("-A", some c.chain.name),
   ("-p", if c.protocol = .all then none else some c.protocol.name), ("-s", c.source),
   ("--sport", c.sourcePort.map Port.text), ("-d", c.destination),
   ("--dport", c.destinationPort.map Port.text), ("-i", c.interfaceValue "-i"),
   ("-o", c.interfaceValue "-o"), ("-j", some c.action.name), ("--to-destination", c.target?)]

theorem map_fst_slots (c : Command) : c.slots.map Prod.fst = optionWords := rfl

theorem optionOf_interface (c : Command) :
    (c.chain.interfaceFlag.elim [] fun flag => optionOf flag c.interface) =
      optionOf "-i" (c.interfaceValue "-i") ++ optionOf "-o" (c.interfaceValue "-o") := by
  unfold interfaceValue
  cases c.chain <;> simp [Chain.interfaceFlag, optionOf]

/-- The options of a command are those of its slots that have a value. -/
theorem options_eq_flatMap (c : Command) :
    c.options = c.slots.flatMap fun slot => optionOf slot.1 slot.2 := by
  have htable : (if c.table = .filter then [] else [("-t", c.table.name)]) =
      optionOf "-t" (if c.table = .filter then none else some c.table.name) := by
    split <;> rfl
  have hprotocol : (if c.protocol = .all then [] else [("-p", c.protocol.name)]) =
      optionOf "-p" (if c.protocol = .all then none else some c.protocol.name) := by
    split <;> rfl
  rw [options, optionOf_interface, htable, hprotocol]
  simp [slots, optionOf]

theorem map_fst_optionOf_sublist (word : String) (value : Option String) :
    ((optionOf word value).map Prod.fst).Sublist [word] := by
  cases value <;> simp [optionOf]

/-- A command has its option words in their order, and none twice. -/
theorem map_fst_options_sublist (c : Command) :
    (c.options.map Prod.fst).Sublist optionWords := by
  rw [options_eq_flatMap, ← c.map_fst_slots]
  induction c.slots with
  | nil => simp
  | cons slot slots ih =>
    rw [List.flatMap_cons, List.map_append, List.map_cons, ← List.singleton_append]
    exact (map_fst_optionOf_sublist slot.1 slot.2).append ih

/-- A text that a shell takes for the program with its options, and for nothing else. -/
structure Inert (text : String) (options : List CommandOption) : Prop where
  chars : ∀ ch ∈ text.toList,
    ch = ' ' ∨ ch.isAlphanum = true ∨ ch ∈ ['.', ':', '/', '_', '+', '-']
  oneLine : '\n' ∉ text.toList
  singleSpaces : ¬ [' ', ' '] <:+: text.toList
  words : Text.pieces ' ' text = "iptables" :: options.flatMap fun o => [o.1, o.2]
  /-- The option words are known ones in their order, and none of them stands without a value. -/
  optionWords : (options.map Prod.fst).Sublist optionWords
  values : ∀ o ∈ options, o.2 ≠ ""

theorem isArgumentChar_iff {ch : Char} :
    isArgumentChar ch = true ↔ ch.isAlphanum = true ∨ ch ∈ ['.', ':', '/', '_', '+', '-'] := by
  simp [isArgumentChar, Text.isAsciiAlphanumeric, Char.isAlphanum, or_assoc]

theorem space_notMem_of_isArgument {w : String} (h : isArgument w = true) : ' ' ∉ w.toList := by
  intro hspace
  exact absurd ((isArgument_iff.mp h).2 ' ' hspace) (by decide)

/-- The words of a compiled command are what its text is split into. -/
theorem pieces_text {r : Rule} {c : Command} (h : r.compile = .ok c) :
    Text.pieces ' ' c.text = c.words := by
  apply Text.pieces_intercalate
  · intro w hw
    exact space_notMem_of_isArgument (isArgument_of_mem_words h hw)
  · exact List.cons_ne_nil _ _

theorem inert_text {r : Rule} {c : Command} (h : r.compile = .ok c) : Inert c.text c.options where
  chars ch hch := (text_chars h hch).imp_right isArgumentChar_iff.mp
  oneLine := newline_notMem_text h
  singleSpaces hdouble := by
    have hempty := Text.empty_mem_pieces hdouble
    rw [pieces_text h] at hempty
    exact absurd (isArgument_of_mem_words h hempty) (by decide)
  words := pieces_text h
  optionWords := map_fst_options_sublist c
  values o ho := (isArgument_iff.mp (isArgument_of_mem_options h ho).2).1

end Command

namespace Rebuild.Worker

/-- Whatever the fields of a rule hold, the text of its command is inert when it has one, and so is
every command of a plan that was made of an assembled script. -/
theorem inert_commands :
    (∀ {r : Rule} {c : Command}, r.compile = .ok c → Command.Inert c.text c.options) ∧
    ∀ {server : String} {rules : List Rule} {onlyEnabled : Bool} {format : Script.Format}
      {w : Worker}, Script.assemble server rules onlyEnabled format = .ok w.script →
      ∀ text ∈ w.plan.commands, ∃ r ∈ rules, ∃ c, r.compile = .ok c ∧ c.text = text ∧
        Command.Inert text c.options := by
  refine ⟨Command.inert_text, fun h text htext => ?_⟩
  obtain ⟨r, hr, c, hc, rfl⟩ := Script.compiled_of_mem_commands h htext
  exact ⟨r, hr, c, hc, rfl, Command.inert_text hc⟩

/-- A source address that looks like an option word is still one word. -/
theorem inert_commands_dnat :
    let r : Rule :=
      { id := .number 1, server := "S1", table := " NAT ", chain := "PREROUTING", action := "dnat",
        sourceIp := some "--to-destination", destIp := some "10.0.0.1 ", destPort := some "08080",
        protocol := some "TCP" }
    let c : Command :=
      { table := .nat, chain := .prerouting, protocol := .tcp, source := some "--to-destination",
        sourcePort := none, destination := some "10.0.0.1", destinationPort := some (.single 8080),
        interface := none, action := .dnat }
    let w : Worker :=
      { task := .create "a" "S1" 1 false 0, unchanged := false,
        script := ⟨"S1", .plain, true, [⟨.number 1, 0, true, c⟩]⟩ }
    r.compile = .ok c ∧ Script.assemble "S1" [r] true .plain = .ok w.script ∧
    '\n' ∉ c.text.toList ∧
    Text.pieces ' ' c.text =
      ["iptables", "-t", "nat", "-A", "PREROUTING", "-p", "tcp", "-s", "--to-destination",
       "-d", "10.0.0.1", "--dport", "8080", "-j", "DNAT", "--to-destination", "10.0.0.1:8080"] := by
  intro r c w
  have hcompile : r.compile = .ok c := by decide +kernel
  have hscript : Script.assemble "S1" [r] true .plain = .ok w.script := by decide +kernel
  refine ⟨hcompile, hscript, (inert_commands.1 hcompile).oneLine, ?_⟩
  obtain ⟨r', hr', c', hc', -, hinert⟩ := inert_commands.2 hscript c.text List.mem_cons_self
  obtain rfl := List.mem_singleton.mp hr'
  obtain rfl := Except.ok.inj (hcompile.symm.trans hc')
  rw [hinert.words]
  decide +kernel

end Rebuild.Worker
end FirewallRollout
