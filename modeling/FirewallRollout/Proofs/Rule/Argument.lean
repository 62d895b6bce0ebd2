import FirewallRollout.Proofs.Outcome
import FirewallRollout.Rule.Compile

/-!
# The words of a compiled command

A rule that compiles has every field parsed, and each word of its command is an argument: not empty,
and made of characters that mean the same to a shell as to the command. The fault of one that does not
names one of the fields.
-/
namespace FirewallRollout

/-- A word that reaches the command as it is written. -/
def isArgument (w : String) : Bool := w != "" && w.toList.all isArgumentChar

theorem isArgument_iff {w : String} :
    isArgument w = true ↔ w ≠ "" ∧ ∀ c ∈ w.toList, isArgumentChar c = true := by
  simp [isArgument]

theorem Fault.unlessSome_ok {α : Type} {f : Fault} {value : Option α} {a : α}
    (h : f.unlessSome value = .ok a) : value = some a := by
  cases value with
  | none => simp [unlessSome] at h
  | some b => simpa [unlessSome] using h

theorem Fault.unlessSome_error {α : Type} {f e : Fault} {value : Option α}
    (h : f.unlessSome value = .error e) : e = f := by
  cases value with
  | none => exact (Except.error.inj h).symm
  | some b => cases h

namespace Rule

/-- The fields that a compilation looks at, by their written names. -/
def compiledFields : List String :=
  ["table", "chain", "action", "protocol", "sourceIp", "sourcePort", "destIp", "destPort",
    "interface"]

/-- What every field of a rule gives when the rule compiles. -/
theorem compile_ok {r : Rule} {c : Command} (h : r.compile = .ok c) :
    Table.parse? r.table = some c.table ∧ Chain.parse? r.chain = some c.chain ∧
    Action.parse? r.action = some c.action ∧ protocolOf r.protocol = .ok c.protocol ∧
    argument "sourceIp" r.sourceIp = .ok c.source ∧
    portArgument "sourcePort" r.sourcePort = .ok c.sourcePort ∧
    argument "destIp" r.destIp = .ok c.destination ∧
    portArgument "destPort" r.destPort = .ok c.destinationPort ∧
    (∃ interface, argument "interface" r.interface = .ok interface ∧
      c.interface = if c.chain.interfaceFlag.isSome then interface else none) ∧
    (c.action.isSourceNat && c.destination.isSome) = false := by
  unfold compile at h
  obtain ⟨table, htable, h⟩ := bind_ok h
  obtain ⟨chain, hchain, h⟩ := bind_ok h
  obtain ⟨action, haction, h⟩ := bind_ok h
  obtain ⟨protocol, hprotocol, h⟩ := bind_ok h
  obtain ⟨source, hsource, h⟩ := bind_ok h
  obtain ⟨sourcePort, hsourcePort, h⟩ := bind_ok h
  obtain ⟨destination, hdestination, h⟩ := bind_ok h
  obtain ⟨destinationPort, hdestinationPort, h⟩ := bind_ok h
  obtain ⟨interface, hinterface, h⟩ := bind_ok h
  cases hrefused : action.isSourceNat && destination.isSome with
  | true => simp [hrefused, bind, Except.bind] at h
  | false =>
    simp only [hrefused, Bool.false_eq_true, if_false, Except.ok.injEq] at h
    subst h
    exact ⟨Fault.unlessSome_ok htable, Fault.unlessSome_ok hchain, Fault.unlessSome_ok haction,
      hprotocol, hsource, hsourcePort, hdestination, hdestinationPort, ⟨interface, hinterface, rfl⟩,
      hrefused⟩

theorem field_of_protocolOf {value : Option String} {fault : Fault}
    (h : protocolOf value = .error fault) : fault.field = "protocol" := by
  unfold protocolOf at h
  split at h
  · cases h
  · obtain rfl := Fault.unlessSome_error h
    rfl

theorem field_of_argument {field : String} {value : Option String} {fault : Fault}
    (h : argument field value = .error fault) : fault.field = field := by
  unfold argument at h
  split at h
  · cases h
  · split at h
    · cases h
    · obtain rfl := Except.error.inj h
      rfl

theorem field_of_portArgument {field : String} {value : Option String} {fault : Fault}
    (h : portArgument field value = .error fault) : fault.field = field := by
  unfold portArgument at h
  split at h
  · cases h
  · next v _ =>
    cases hport : (Fault.invalidPort field v).unlessSome (Port.parse? v) with
    | ok p => simp [hport, Except.map] at h
    | error e =>
      rw [hport] at h
      obtain rfl := Except.error.inj h
      rw [Fault.unlessSome_error hport]
      rfl

/-- The fault of a rule names a field that the compilation looks at. -/
theorem compile_error {r : Rule} {fault : Fault} (h : r.compile = .error fault) :
    fault.field ∈ compiledFields := by
  unfold compile at h
  rcases bind_error h with h | ⟨_, -, h⟩
  · obtain rfl := Fault.unlessSome_error h
    simp [Fault.field, compiledFields]
  rcases bind_error h with h | ⟨_, -, h⟩
  · obtain rfl := Fault.unlessSome_error h
    simp [Fault.field, compiledFields]
  rcases bind_error h with h | ⟨action, -, h⟩
  · obtain rfl := Fault.unlessSome_error h
    simp [Fault.field, compiledFields]
  rcases bind_error h with h | ⟨_, -, h⟩
  · simp [field_of_protocolOf h, compiledFields]
  rcases bind_error h with h | ⟨_, -, h⟩
  · simp [field_of_argument h, compiledFields]
  rcases bind_error h with h | ⟨_, -, h⟩
  · simp [field_of_portArgument h, compiledFields]
  rcases bind_error h with h | ⟨destination, -, h⟩
  · simp [field_of_argument h, compiledFields]
  rcases bind_error h with h | ⟨_, -, h⟩
  · simp [field_of_portArgument h, compiledFields]
  rcases bind_error h with h | ⟨_, -, h⟩
  · simp [field_of_argument h, compiledFields]
  cases hrefused : action.isSourceNat && destination.isSome with
  | true =>
    simp only [hrefused, if_true, bind, Except.bind, Except.error.injEq] at h
    subst h
    simp [Fault.field, compiledFields]
  | false => simp [hrefused] at h

theorem isArgument_of_argument {field : String} {value : Option String} {v : String}
    (h : argument field value = .ok (some v)) : isArgument v = true := by
  unfold argument at h
  split at h
  · cases h
  · next v' hpresent =>
    split at h
    · next hall =>
      obtain rfl := Option.some.inj (Except.ok.inj h)
      obtain ⟨-, hne⟩ := Option.filter_eq_some_iff.mp hpresent
      exact Bool.and_eq_true_iff.mpr ⟨hne, hall⟩
    · cases h

end Rule

namespace Chain

theorem isArgumentChar_of_isNameChar {c : Char} (h : isNameChar c = true) :
    isArgumentChar c = true := by
  simp only [isNameChar, isArgumentChar, Bool.or_eq_true] at h ⊢
  rcases h with (h | h) | h <;> simp [h]

theorem isArgument_name {s : String} {c : Chain} (h : parse? s = some c) :
    isArgument c.name = true := by
  unfold parse? at h
  split at h
  case h_6 =>
    split at h
    · next hname =>
      obtain rfl := Option.some.inj h
      simp only [isName, Bool.and_eq_true] at hname
      obtain ⟨⟨⟨hne, -⟩, -⟩, hchars⟩ := hname
      rw [isArgument_iff]
      refine ⟨?_, fun ch hch => ?_⟩
      · rintro (hempty : Text.trim s = "")
        simp [hempty] at hne
      · exact isArgumentChar_of_isNameChar (List.all_eq_true.mp hchars ch hch)
    · cases h
  all_goals
    obtain rfl := Option.some.inj h
    decide

theorem isArgument_interfaceFlag {c : Chain} {flag : String} (h : c.interfaceFlag = some flag) :
    isArgument flag = true := by
  cases c <;> simp only [interfaceFlag, Option.some.injEq, reduceCtorEq] at h <;> subst h <;> decide

end Chain

theorem Table.isArgument_name (t : Table) : isArgument t.name = true := by
  cases t <;> decide

theorem Protocol.isArgument_name (p : Protocol) : isArgument p.name = true := by
  cases p <;> decide

theorem Action.isArgument_name (a : Action) : isArgument a.name = true := by
  cases a <;> decide

/-- A word of digits, or of an argument and more of its characters, is an argument. -/
theorem isArgument_append {v w : String} (hv : isArgument v = true)
    (hw : ∀ c ∈ w.toList, isArgumentChar c = true) : isArgument (v ++ w) = true := by
  rw [isArgument_iff] at hv ⊢
  refine ⟨fun h => hv.1 ?_, fun c hc => ?_⟩
  · exact (String.append_eq_empty_iff.mp h).1
  · rw [String.toList_append, List.mem_append] at hc
    rcases hc with hc | hc
    · exact hv.2 c hc
    · exact hw c hc

theorem isArgument_toString (n : Nat) : isArgument (toString n) = true := by
  rw [isArgument_iff, Nat.toString_eq_ofList_toDigits]
  refine ⟨?_, fun c hc => ?_⟩
  · rw [← Nat.toString_eq_ofList_toDigits]
    exact Nat.repr_ne_empty
  · rw [String.toList_ofList] at hc
    have hdigit := Nat.isDigit_of_mem_toDigits (by decide) (by decide) hc
    simp [isArgumentChar, Text.isAsciiAlphanumeric, hdigit]

namespace Port

theorem isArgument_render (separator : String)
    (hseparator : ∀ c ∈ separator.toList, isArgumentChar c = true) (p : Port) :
    isArgument (p.render separator) = true := by
  cases p with
  | single n => exact isArgument_toString n
  | span m n =>
    apply isArgument_append (isArgument_append (isArgument_toString m) hseparator)
    exact (isArgument_iff.mp (isArgument_toString n)).2

theorem isArgument_text (p : Port) : isArgument p.text = true :=
  isArgument_render ":" (by simp [isArgumentChar]) p

theorem isArgument_targetText (p : Port) : isArgument p.targetText = true :=
  isArgument_render "-" (by simp [isArgumentChar]) p

end Port

namespace Command

/-- The words that an option adds. -/
theorem isArgument_of_mem_optionOf {word : String} {value : Option String}
    (hword : isArgument word = true) (hvalue : ∀ v, value = some v → isArgument v = true)
    {o : CommandOption} (ho : o ∈ optionOf word value) :
    isArgument o.1 = true ∧ isArgument o.2 = true := by
  obtain ⟨v, hv, rfl⟩ := List.mem_map.mp ho
  exact ⟨hword, hvalue v (Option.mem_toList.mp hv)⟩

theorem isArgument_targetOf {address : String} (h : isArgument address = true)
    (port : Option Port) : isArgument (targetOf address port) = true := by
  unfold targetOf
  split
  · next p =>
    split
    · exact h
    · apply isArgument_append (isArgument_append h (by simp [isArgumentChar]))
      exact (isArgument_iff.mp p.isArgument_targetText).2
  · exact h

/-- Every option of a compiled command is a word with a value. -/
theorem isArgument_of_mem_options {r : Rule} {c : Command} (h : r.compile = .ok c)
    {o : CommandOption} (ho : o ∈ c.options) : isArgument o.1 = true ∧ isArgument o.2 = true := by
  obtain ⟨-, hchain, -, -, hsource, -, hdestination, -, ⟨interface, hinterface, hflag⟩, -⟩ :=
    Rule.compile_ok h
  have hsource' : ∀ v, c.source = some v → isArgument v = true :=
    fun v hv => Rule.isArgument_of_argument (hv ▸ hsource)
  have hdestination' : ∀ v, c.destination = some v → isArgument v = true :=
    fun v hv => Rule.isArgument_of_argument (hv ▸ hdestination)
  have hinterface' : ∀ v, c.interface = some v → isArgument v = true := by
    intro v hv
    rw [hflag] at hv
    split at hv
    · exact Rule.isArgument_of_argument (hv ▸ hinterface)
    · cases hv
  have hport : ∀ (port : Option Port) v, port.map Port.text = some v → isArgument v = true := by
    intro port v hv
    obtain ⟨p, -, rfl⟩ := Option.map_eq_some_iff.mp hv
    exact p.isArgument_text
  have htarget : ∀ v, c.target? = some v → isArgument v = true := by
    intro v hv
    unfold target? at hv
    split at hv
    · obtain ⟨address, haddress, rfl⟩ := Option.map_eq_some_iff.mp hv
      exact isArgument_targetOf (hdestination' address haddress) _
    · cases hv
  simp only [options, List.mem_append] at ho
  rcases ho with ((((((((ho | ho) | ho) | ho) | ho) | ho) | ho) | ho) | ho) | ho
  · split at ho
    · cases ho
    · obtain rfl := List.mem_singleton.mp ho
      exact ⟨(by decide : isArgument "-t" = true), c.table.isArgument_name⟩
  · obtain rfl := List.mem_singleton.mp ho
    exact ⟨(by decide : isArgument "-A" = true), Chain.isArgument_name hchain⟩
  · split at ho
    · cases ho
    · obtain rfl := List.mem_singleton.mp ho
      exact ⟨(by decide : isArgument "-p" = true), c.protocol.isArgument_name⟩
  · exact isArgument_of_mem_optionOf (by decide) hsource' ho
  · exact isArgument_of_mem_optionOf (by decide) (hport _) ho
  · exact isArgument_of_mem_optionOf (by decide) hdestination' ho
  · exact isArgument_of_mem_optionOf (by decide) (hport _) ho
  · cases hflag : c.chain.interfaceFlag with
    | none => simp [hflag] at ho
    | some flag =>
      rw [hflag] at ho
      exact isArgument_of_mem_optionOf (Chain.isArgument_interfaceFlag hflag) hinterface' ho
  · obtain rfl := List.mem_singleton.mp ho
    exact ⟨(by decide : isArgument "-j" = true), c.action.isArgument_name⟩
  · exact isArgument_of_mem_optionOf (by decide) htarget ho

theorem isArgument_of_mem_words {r : Rule} {c : Command} (h : r.compile = .ok c) {w : String}
    (hw : w ∈ c.words) : isArgument w = true := by
  rcases List.mem_cons.mp hw with rfl | hw
  · decide
  · obtain ⟨o, ho, hw⟩ := List.mem_flatMap.mp hw
    have hoption := isArgument_of_mem_options h ho
    rcases List.mem_cons.mp hw with rfl | hw
    · exact hoption.1
    · obtain rfl := List.mem_singleton.mp hw
      exact hoption.2

/-- The characters of words set apart by spaces. -/
theorem mem_toList_intercalate {words : List String} {ch : Char}
    (h : ch ∈ (" ".intercalate words).toList) : ch = ' ' ∨ ∃ w ∈ words, ch ∈ w.toList := by
  induction words with
  | nil => simp at h
  | cons w words ih =>
    cases words with
    | nil => exact .inr ⟨w, .head _, by simpa using h⟩
    | cons v words =>
      rw [String.intercalate_cons_cons, String.toList_append, String.toList_append,
        List.mem_append, List.mem_append] at h
      rcases h with (h | h) | h
      · exact .inr ⟨w, .head _, h⟩
      · exact .inl (List.mem_singleton.mp h)
      · rcases ih h with h | ⟨x, hx, h⟩
        · exact .inl h
        · exact .inr ⟨x, .tail _ hx, h⟩

/-- The text of a compiled command holds nothing but characters of arguments and spaces. -/
theorem text_chars {r : Rule} {c : Command} (h : r.compile = .ok c) {ch : Char}
    (hch : ch ∈ c.text.toList) : ch = ' ' ∨ isArgumentChar ch = true := by
  rcases mem_toList_intercalate hch with hspace | ⟨w, hw, hch⟩
  · exact .inl hspace
  · exact .inr ((isArgument_iff.mp (isArgument_of_mem_words h hw)).2 ch hch)

theorem newline_notMem_text {r : Rule} {c : Command} (h : r.compile = .ok c) :
    '\n' ∉ c.text.toList := by
  intro hnewline
  rcases text_chars h hnewline with hspace | hchar
  · exact absurd hspace (by decide)
  · exact absurd hchar (by decide)

end Command
end FirewallRollout
