import FirewallRollout.Proofs.Rule.Spelling
import FirewallRollout.Proofs.Rule.Words

/-!
# The normal form of a rule

What a rule says once its fields are parsed, and how that is read back from the text of its command.
The text is split at its spaces into option words with their values, so that a value may look like
an option word and is none. Two rules have one text exactly when they have one normal form.
-/
namespace FirewallRollout

/-- The command of a rule, with the argument of `--to-destination` beside it. -/
structure NormalForm where
  command : Command
  toDestination : Option String
  deriving DecidableEq

namespace Rule

/-- The port at the end of a translation target: none for the ports that are implied. -/
def portSuffix : Option Port → String
  | none => ""
  | some (.single n) => if n = 80 ∨ n = 443 then "" else ":" ++ toString n
  | some (.span low high) => ":" ++ toString low ++ "-" ++ toString high

/-- The protocol that a field names, every protocol when it is absent or blank. -/
def protocol? (r : Rule) : Option Protocol :=
  (Text.present r.protocol).elim (some .all) Protocol.parse?

/-- What the fields of a rule say, when those that are looked up in a vocabulary are in it. -/
def normalForm? (r : Rule) : Option NormalForm := do
  let table ← Table.parse? r.table
  let chain ← Chain.parse? r.chain
  let protocol ← r.protocol?
  let action ← Action.parse? r.action
  let destination := Text.present r.destIp
  let destinationPort := (Text.present r.destPort).bind Port.parse?
  some
    { command :=
        { table, chain, protocol, source := Text.present r.sourceIp,
          sourcePort := (Text.present r.sourcePort).bind Port.parse?, destination, destinationPort,
          interface := if chain.interfaceFlag.isSome then Text.present r.interface else none,
          action }
      toDestination :=
        if action = .dnat then destination.map (· ++ portSuffix destinationPort) else none }

/-- An argument is the trimmed value of its field. -/
theorem eq_present_of_argument {field : String} {value a : Option String}
    (h : argument field value = .ok a) : a = Text.present value := by
  unfold argument at h
  cases hv : Text.present value with
  | none =>
    rw [hv] at h
    exact (Except.ok.inj h).symm
  | some v =>
    rw [hv] at h
    simp only at h
    split at h
    · exact (Except.ok.inj h).symm
    · cases h

theorem portArgument_eq_ok_iff {field : String} {value : Option String} {port : Option Port} :
    portArgument field value = .ok port ↔
      (Text.present value).elim (some none) (fun v => (Port.parse? v).map some) = some port := by
  unfold portArgument
  cases Text.present value with
  | none => simp
  | some v => cases h : Port.parse? v <;> simp [Fault.unlessSome, Except.map, h]

theorem protocolOf_eq_ok_iff {r : Rule} {protocol : Protocol} :
    protocolOf r.protocol = .ok protocol ↔ r.protocol? = some protocol := by
  unfold protocolOf protocol?
  cases Text.present r.protocol with
  | none => simp
  | some v => cases h : Protocol.parse? v <;> simp [Fault.unlessSome, h]

/-- A rule compiles to a command exactly when each field gives the command's own part. -/
theorem compile_eq_ok_iff {r : Rule} {c : Command} :
    r.compile = .ok c ↔
      Table.parse? r.table = some c.table ∧ Chain.parse? r.chain = some c.chain ∧
      Action.parse? r.action = some c.action ∧ protocolOf r.protocol = .ok c.protocol ∧
      argument "sourceIp" r.sourceIp = .ok c.source ∧
      portArgument "sourcePort" r.sourcePort = .ok c.sourcePort ∧
      argument "destIp" r.destIp = .ok c.destination ∧
      portArgument "destPort" r.destPort = .ok c.destinationPort ∧
      (∃ interface, argument "interface" r.interface = .ok interface ∧
        c.interface = if c.chain.interfaceFlag.isSome then interface else none) ∧
      (c.action.isSourceNat && c.destination.isSome) = false := by
  refine ⟨compile_ok, ?_⟩
  rintro ⟨htable, hchain, haction, hprotocol, hsource, hsourcePort, hdestination, hdestinationPort,
    ⟨interface, hinterface, hflag⟩, hrefused⟩
  unfold compile
  simp [htable, hchain, haction, hprotocol, hsource, hsourcePort, hdestination, hdestinationPort,
    hinterface, hrefused, Fault.unlessSome, bind, Except.bind, ← hflag]

theorem bind_parse?_of_portArgument {field : String} {value : Option String} {port : Option Port}
    (h : portArgument field value = .ok port) : (Text.present value).bind Port.parse? = port := by
  rw [portArgument_eq_ok_iff] at h
  cases hv : Text.present value with
  | none => simpa [hv] using h
  | some v =>
    rw [hv] at h
    obtain ⟨p, hp, rfl⟩ := Option.map_eq_some_iff.mp h
    exact hp

theorem isValid_of_portArgument {field : String} {value : Option String} {p : Port}
    (h : portArgument field value = .ok (some p)) : p.IsValid := by
  obtain ⟨v, -, hv⟩ := Option.bind_eq_some_iff.mp (bind_parse?_of_portArgument h)
  exact Port.isValid_of_parse? hv

/-- The target of a command in the words of its normal form. -/
theorem target?_eq (c : Command) :
    c.target? = if c.action = .dnat then c.destination.map (· ++ portSuffix c.destinationPort)
      else none := by
  have htarget : ∀ address, Command.targetOf address c.destinationPort =
      address ++ portSuffix c.destinationPort := by
    intro address
    unfold Command.targetOf portSuffix Command.implicitPorts
    cases c.destinationPort with
    | none => simp
    | some p =>
      cases p with
      | single n =>
        by_cases hn : n = 80 ∨ n = 443
        · simp [hn]
        · simp [hn, Port.targetText, Port.render, String.append_assoc]
      | span m n => simp [Port.targetText, Port.render, String.append_assoc]
  unfold Command.target?
  simp only [htarget]

/-- The command of a rule is its normal form's, with the target that its text has. -/
theorem normalForm?_of_compile {r : Rule} {c : Command} (h : r.compile = .ok c) :
    r.normalForm? = some { command := c, toDestination := c.target? } := by
  obtain ⟨htable, hchain, haction, hprotocol, hsource, hsourcePort, hdestination,
    hdestinationPort, ⟨interface, hinterface, hflag⟩, -⟩ := compile_ok h
  unfold normalForm?
  rw [htable, hchain, haction, protocolOf_eq_ok_iff.mp hprotocol, target?_eq,
    ← eq_present_of_argument hsource, ← eq_present_of_argument hdestination,
    ← eq_present_of_argument hinterface, bind_parse?_of_portArgument hsourcePort,
    bind_parse?_of_portArgument hdestinationPort]
  simp only [Option.bind_eq_bind, Option.bind_some, ← hflag]

/-- Two rules whose fields are read as the same: they may differ in blanks around a field, in the
case of table, action and protocol, in leading zeros of ports, and in every field that the command
does not say. -/
structure Alike (r r' : Rule) : Prop where
  table : Text.foldLower (Text.trim r.table) = Text.foldLower (Text.trim r'.table)
  chain : Text.trim r.chain = Text.trim r'.chain
  action : Text.foldUpper (Text.trim r.action) = Text.foldUpper (Text.trim r'.action)
  protocol : (Text.present r.protocol).map Text.foldLower =
    (Text.present r'.protocol).map Text.foldLower
  sourceIp : Text.present r.sourceIp = Text.present r'.sourceIp
  sourcePort : (Text.present r.sourcePort).map Port.significantParts =
    (Text.present r'.sourcePort).map Port.significantParts
  destIp : Text.present r.destIp = Text.present r'.destIp
  destPort : (Text.present r.destPort).map Port.significantParts =
    (Text.present r'.destPort).map Port.significantParts
  interface : Text.present r.interface = Text.present r'.interface

theorem argument_congr (field : String) {value value' : Option String}
    (h : Text.present value = Text.present value') :
    Rule.argument field value = Rule.argument field value' := by
  unfold Rule.argument
  rw [h]

theorem portArgument_ok_congr {field : String} {value value' : Option String} {port : Option Port}
    (h : (Text.present value).map Port.significantParts =
      (Text.present value').map Port.significantParts)
    (hport : portArgument field value = .ok port) : portArgument field value' = .ok port := by
  have hread : ∀ value : Option String,
      (Text.present value).elim (some none) (fun v => (Port.parse? v).map some) =
        ((Text.present value).map Port.significantParts).elim (some none)
          fun parts => (Port.ofParts parts).map some := by
    intro value
    cases Text.present value with
    | none => rfl
    | some v => simp [Port.parse?_eq_of_significantParts]
  rw [portArgument_eq_ok_iff, hread] at hport ⊢
  rwa [← h]

/-- A field that is read as a protocol is read by its folded text. -/
theorem protocol?_congr {r r' : Rule}
    (h : (Text.present r.protocol).map Text.foldLower =
      (Text.present r'.protocol).map Text.foldLower) : r.protocol? = r'.protocol? := by
  unfold protocol?
  cases hv : Text.present r.protocol with
  | none =>
    rw [hv] at h
    rw [Option.map_eq_none_iff.mp h.symm]
  | some v =>
    rw [hv] at h
    obtain ⟨v', hv', hfold⟩ := Option.map_eq_some_iff.mp h.symm
    simp only [hv', Option.elim_some, Protocol.parse?, Text.trim_of_present hv,
      Text.trim_of_present hv', hfold]

/-- Rules that are alike compile to one command. -/
theorem Alike.compile {r r' : Rule} (h : r.Alike r') {c : Command} (hc : r.compile = .ok c) :
    r'.compile = .ok c := by
  rw [compile_eq_ok_iff] at hc ⊢
  obtain ⟨htable, hchain, haction, hprotocol, hsource, hsourcePort, hdestination,
    hdestinationPort, ⟨interface, hinterface, hflag⟩, hrefused⟩ := hc
  refine ⟨?_, ?_, ?_, ?_, ?_, portArgument_ok_congr h.sourcePort hsourcePort, ?_,
    portArgument_ok_congr h.destPort hdestinationPort, ⟨interface, ?_, hflag⟩, hrefused⟩
  · rw [← htable, Table.parse?, Table.parse?, h.table]
  · rw [← hchain, Chain.parse?, Chain.parse?, h.chain]
  · rw [← haction, Action.parse?, Action.parse?, h.action]
  · rwa [protocolOf_eq_ok_iff, ← protocol?_congr h.protocol, ← protocolOf_eq_ok_iff]
  · rw [← hsource, argument_congr _ h.sourceIp]
  · rw [← hdestination, argument_congr _ h.destIp]
  · rw [← hinterface, argument_congr _ h.interface]

end Rule

namespace Command

theorem lookup_optionOf (k : String) (value : Option String) (w : String) :
    (optionOf k value).lookup w = if w = k then value else none := by
  cases value with
  | none => simp [optionOf]
  | some v =>
    by_cases hw : w = k
    · simp [optionOf, hw]
    · simp [optionOf, List.lookup_cons, hw, beq_false_of_ne hw]

theorem lookup_flatMap_of_notMem {l : List (String × Option String)} {w : String}
    (h : w ∉ l.map Prod.fst) : (l.flatMap fun slot => optionOf slot.1 slot.2).lookup w = none := by
  induction l with
  | nil => rfl
  | cons slot l ih =>
    obtain ⟨hne, hl⟩ := not_or.mp (mt List.mem_cons.mpr h)
    rw [List.flatMap_cons, List.lookup_append, lookup_optionOf, if_neg hne, ih hl]
    rfl

/-- Under each of distinct option words stands the value of its slot. -/
theorem lookup_flatMap_of_mem {l : List (String × Option String)}
    (hdistinct : (l.map Prod.fst).Nodup) {w : String} {value : Option String}
    (hslot : (w, value) ∈ l) : (l.flatMap fun slot => optionOf slot.1 slot.2).lookup w = value := by
  induction l with
  | nil => cases hslot
  | cons slot l ih =>
    obtain ⟨hk, hl⟩ := List.nodup_cons.mp hdistinct
    rw [List.flatMap_cons, List.lookup_append, lookup_optionOf]
    rcases List.mem_cons.mp hslot with rfl | hslot
    · rw [if_pos rfl, lookup_flatMap_of_notMem hk, Option.or_none]
    · have hne : w ≠ slot.1 := by
        rintro rfl
        exact hk (List.mem_map.mpr ⟨_, hslot, rfl⟩)
      rw [if_neg hne, ih hl hslot, Option.none_or]

theorem lookup_options {c : Command} {w : String} {value : Option String}
    (h : (w, value) ∈ c.slots) : c.options.lookup w = value := by
  rw [options_eq_flatMap]
  exact lookup_flatMap_of_mem (by rw [map_fst_slots]; decide) h

end Command

namespace NormalForm

/-- Words taken two by two. -/
def pairs? : List String → Option (List CommandOption)
  | [] => some []
  | [_] => none
  | word :: value :: rest => (pairs? rest).map ((word, value) :: ·)

theorem pairs?_flatMap (options : List CommandOption) :
    pairs? (options.flatMap fun o => [o.1, o.2]) = some options := by
  induction options with
  | nil => rfl
  | cons o options ih =>
    rw [List.flatMap_cons, List.cons_append, List.singleton_append, pairs?, ih]
    rfl

/-- The port that an option's value names; absent without the option. -/
def portOf? (value : Option String) : Option (Option Port) :=
  value.elim (some none) fun v => (Port.parse? v).map some

/-- What the options of a command say. -/
def ofOptions? (options : List CommandOption) : Option NormalForm := do
  let table ← (options.lookup "-t").elim (some .filter) Table.parse?
  let chain ← (options.lookup "-A").bind Chain.parse?
  let protocol ← (options.lookup "-p").elim (some .all) Protocol.parse?
  let sourcePort ← portOf? (options.lookup "--sport")
  let destinationPort ← portOf? (options.lookup "--dport")
  let action ← (options.lookup "-j").bind Action.parse?
  some
    { command :=
        { table, chain, protocol, source := options.lookup "-s", sourcePort,
          destination := options.lookup "-d", destinationPort,
          interface := (options.lookup "-i").or (options.lookup "-o"), action }
      toDestination := options.lookup "--to-destination" }

/-- What the text of a command says. -/
def ofText? (text : String) : Option NormalForm :=
  match Text.pieces ' ' text with
  | "iptables" :: words => (pairs? words).bind ofOptions?
  | _ => none

theorem portOf?_text {port : Option Port} (h : ∀ p, port = some p → p.IsValid) :
    portOf? (port.map Port.text) = some port := by
  cases port with
  | none => rfl
  | some p => simp [portOf?, Port.parse?_text (h p rfl)]

theorem tableOf_slot (t : Table) :
    (if t = .filter then none else some t.name).elim (some .filter) Table.parse? = some t := by
  cases t <;> simp [Table.parse?_name]

theorem protocolOf_slot (p : Protocol) :
    (if p = .all then none else some p.name).elim (some .all) Protocol.parse? = some p := by
  cases p <;> simp [Protocol.parse?_name]

/-- The one interface option that a chain has, if any, gives the interface. -/
theorem interfaceOf_slots {c : Command} {interface : Option String}
    (h : c.interface = if c.chain.interfaceFlag.isSome then interface else none) :
    (c.interfaceValue "-i").or (c.interfaceValue "-o") = c.interface := by
  unfold Command.interfaceValue
  rw [h]
  cases c.chain <;> simp [Chain.interfaceFlag]

/-- The options of a compiled command are read back as its normal form. -/
theorem ofOptions?_options {r : Rule} {c : Command} (h : r.compile = .ok c) :
    ofOptions? c.options = some { command := c, toDestination := c.target? } := by
  obtain ⟨-, hchain, -, -, -, hsourcePort, -, hdestinationPort, ⟨interface, -, hflag⟩, -⟩ :=
    Rule.compile_ok h
  have hsport : portOf? (c.sourcePort.map Port.text) = some c.sourcePort :=
    portOf?_text fun p hp => Rule.isValid_of_portArgument (hsourcePort.trans (congrArg _ hp))
  have hdport : portOf? (c.destinationPort.map Port.text) = some c.destinationPort :=
    portOf?_text fun p hp => Rule.isValid_of_portArgument (hdestinationPort.trans (congrArg _ hp))
  have hslot : ∀ slot ∈ c.slots, c.options.lookup slot.1 = slot.2 :=
    fun slot hmem => Command.lookup_options hmem
  simp only [Command.slots, List.forall_mem_cons] at hslot
  obtain ⟨ht, hA, hp, hs, hspt, hd, hdpt, hi, ho, hj, hto, -⟩ := hslot
  unfold ofOptions?
  rw [ht, hA, hp, hs, hspt, hd, hdpt, hi, ho, hj, hto, tableOf_slot, protocolOf_slot,
    interfaceOf_slots hflag, hsport, hdport]
  simp only [Option.bind_some, Option.bind_eq_bind, Chain.parse?_name hchain, Action.parse?_name]

/-- The text of a compiled command is read back as its normal form. -/
theorem ofText?_text {r : Rule} {c : Command} (h : r.compile = .ok c) :
    ofText? c.text = some { command := c, toDestination := c.target? } := by
  unfold ofText?
  rw [Command.pieces_text h, Command.words]
  simp only [pairs?_flatMap, Option.bind_some]
  exact ofOptions?_options h

/-- The text of a command tells the normal form of its rule, and nothing else of it: the normal
form is read back from the text, rules with a command have one text exactly when they have one
normal form, and a rule that is alike has a command with the same text. -/
theorem uniquely_readable {r : Rule} {c : Command} (h : r.compile = .ok c) :
    (∃ n, r.normalForm? = some n ∧ ofText? c.text = some n) ∧
    (∀ {r' : Rule} {c' : Command}, r'.compile = .ok c' →
      (c.text = c'.text ↔ r.normalForm? = r'.normalForm?)) ∧
    ∀ {r' : Rule}, r.Alike r' → ∃ c', r'.compile = .ok c' ∧ c'.text = c.text := by
  have hform := Rule.normalForm?_of_compile h
  refine ⟨⟨_, hform, ofText?_text h⟩, fun {r' c'} h' => ?_, fun {r'} halike => ?_⟩
  · have hform' := Rule.normalForm?_of_compile h'
    constructor
    · intro htext
      rw [hform, hform', ← ofText?_text h, ← ofText?_text h', htext]
    · intro heq
      rw [hform, hform', Option.some.injEq] at heq
      exact congrArg (fun n => n.command.text) heq
  · exact ⟨c, halike.compile h, rfl⟩

/-- A translation in two spellings, with a source address that looks like an option word. -/
theorem uniquely_readable_dnat :
    let r : Rule :=
      { id := .number 1, server := "S1", table := "nat", chain := "PREROUTING", action := "DNAT",
        sourceIp := some "--to-destination", destIp := some "10.0.0.1", destPort := some "8080:8081",
        protocol := some "tcp", interface := some "eth0" }
    let r' : Rule :=
      { id := .text "x", server := "S2", table := " NAT ", chain := "PREROUTING\n", action := "dnat",
        sourceIp := some " --to-destination", destIp := some "10.0.0.1\t",
        destPort := some "08080:008081 ", protocol := some "Tcp", interface := some "eth0",
        priority := 7, enabled := false, comment := some "moved" }
    let c : Command :=
      { table := .nat, chain := .prerouting, protocol := .tcp, source := some "--to-destination",
        sourcePort := none, destination := some "10.0.0.1",
        destinationPort := some (.span 8080 8081), interface := none, action := .dnat }
    r.compile = .ok c ∧ r.Alike r' ∧
    ofText? c.text = some { command := c, toDestination := some "10.0.0.1:8080-8081" } ∧
    ∃ c', r'.compile = .ok c' ∧ c'.text = c.text ∧ r.normalForm? = r'.normalForm? := by
  intro r r' c
  have hcompile : r.compile = .ok c := by decide +kernel
  have halike : r.Alike r' := by
    constructor <;> decide +kernel
  obtain ⟨⟨n, hn, hread⟩, hsame, hspelled⟩ := uniquely_readable hcompile
  have hform : r.normalForm? =
      some { command := c, toDestination := some "10.0.0.1:8080-8081" } := by
    decide +kernel
  obtain ⟨c', hcompile', htext⟩ := hspelled halike
  refine ⟨hcompile, halike, ?_, c', hcompile', htext, (hsame hcompile').mp htext.symm⟩
  rw [hread, ← hn, hform]

end NormalForm
end FirewallRollout
