import FirewallRollout.Proofs.Rule.NormalForm
import FirewallRollout.Proofs.Text.Numeral

/-!
# The rules that have a command

What is asked of each field of a rule, told of its text and not of how it is read. A rule has a
command exactly when all of this is met. Otherwise its error names the first field that falls short,
in the order in which the fields are looked at; the destination comes twice, for its characters and
for the actions that take none.
-/
namespace FirewallRollout

/-- A demand on a field, and what is said when it is not met. -/
structure Requirement where
  field : String
  message : String
  met : Prop

/-- The first of some requirements that is not met. -/
inductive FirstUnmet : List Requirement → Requirement → Prop
  | here {q : Requirement} {rest : List Requirement} (unmet : ¬ q.met) : FirstUnmet (q :: rest) q
  | later {p q : Requirement} {rest : List Requirement} (met : p.met) (first : FirstUnmet rest q) :
      FirstUnmet (p :: rest) q

namespace Table

/-- The known names, and a blank text for the first of them. -/
def Named (s : String) : Prop := Text.trim s = "" ∨ ∃ t : Table, Text.Spells s t.name

end Table

namespace Chain

/-- A built-in name, or one of at most 28 letters, digits, underscores and hyphens that does not
begin with a hyphen. -/
def Named (s : String) : Prop :=
  Text.trim s ∈ ["PREROUTING", "INPUT", "FORWARD", "OUTPUT", "POSTROUTING"] ∨
    1 ≤ (Text.trim s).length ∧ (Text.trim s).length ≤ 28 ∧
    (∀ c ∈ (Text.trim s).toList, c.isAlphanum = true ∨ c = '_' ∨ c = '-') ∧
    (Text.trim s).toList.head? ≠ some '-'

end Chain

namespace Port

/-- A number of a port, or two with a colon between of which the second is no smaller. -/
def Written (s : String) : Prop :=
  (∃ n, Text.IsNumeral s.toList n ∧ 1 ≤ n ∧ n ≤ 65535) ∨
    ∃ low high m n, s.toList = low ++ ':' :: high ∧ Text.IsNumeral low m ∧ Text.IsNumeral high n ∧
      1 ≤ m ∧ m ≤ n ∧ n ≤ 65535

end Port

namespace Rule

/-- What an optional field has to be, unless it is absent or blank. -/
def IfPresent (value : Option String) (good : String → Prop) : Prop :=
  ∀ v, Text.present value = some v → good v

/-- The text of an optional field as a message shows it. -/
def given (value : Option String) : String := (Text.present value).getD ""

/-- A text without characters that a shell could take for something else. -/
def IsPlain (s : String) : Prop :=
  ∀ c ∈ s.toList, c.isAlphanum = true ∨ c ∈ ['.', ':', '/', '_', '+', '-']

def tableField (table : String) : Requirement where
  field := "table"
  message := s!"unknown table '{Text.foldLower (Text.trim table)}'"
  met := Table.Named table

def chainField (chain : String) : Requirement where
  field := "chain"
  message := s!"invalid chain name '{Text.trim chain}'"
  met := Chain.Named chain

def actionField (action : String) : Requirement where
  field := "action"
  message := s!"unknown action '{Text.trim action}'"
  met := ∃ a : Action, Text.Spells action a.name

def protocolField (protocol : Option String) : Requirement where
  field := "protocol"
  message := s!"unknown protocol '{Text.foldLower (given protocol)}'"
  met := IfPresent protocol fun v => ∃ p : Protocol, Text.Spells v p.name

/-- An address or an interface. -/
def plainField (field : String) (value : Option String) : Requirement where
  field := field
  message := s!"'{given value}' contains characters not allowed in an iptables argument"
  met := IfPresent value IsPlain

def portField (field : String) (value : Option String) : Requirement where
  field := field
  message := s!"invalid port or port range '{given value}'"
  met := IfPresent value Port.Written

/-- An action that rewrites the source takes no destination address. -/
def sourceNatField (action : String) (destIp : Option String) : Requirement where
  field := "destIp"
  message := s!"{Text.foldUpper (Text.trim action)} does not take a destination address"
  met := Text.Spells action "SNAT" ∨ Text.Spells action "MASQUERADE" → Text.present destIp = none

/-- All that is asked of a rule, in the order in which the fields are looked at. -/
def requirements (r : Rule) : List Requirement :=
  [tableField r.table, chainField r.chain, actionField r.action, protocolField r.protocol,
   plainField "sourceIp" r.sourceIp, portField "sourcePort" r.sourcePort,
   plainField "destIp" r.destIp, portField "destPort" r.destPort,
   plainField "interface" r.interface, sourceNatField r.action r.destIp]

end Rule

/-! ## The fields one by one -/

theorem Table.parse?_isSome_iff (s : String) : (Table.parse? s).isSome = true ↔ Table.Named s := by
  constructor
  · intro h
    unfold parse? at h
    split at h
    · next hfold => exact .inl (Text.foldLower_eq_empty_iff.mp hfold)
    · next hfold => exact .inr ⟨.filter, hfold⟩
    · next hfold => exact .inr ⟨.nat, hfold⟩
    · next hfold => exact .inr ⟨.mangle, hfold⟩
    · next hfold => exact .inr ⟨.raw, hfold⟩
    · cases h
  · rintro (hblank | ⟨t, ht⟩)
    · unfold parse?
      rw [hblank]
      rfl
    · unfold parse?
      rw [ht]
      cases t <;> rfl

theorem Action.foldUpper_name (a : Action) : Text.foldUpper a.name = a.name := by
  cases a <;> decide

theorem Action.parse?_eq_some_iff {s : String} {a : Action} :
    Action.parse? s = some a ↔ Text.Spells s a.name := by
  have hspells : Text.Spells s a.name ↔ Text.foldUpper (Text.trim s) = a.name := by
    rw [Text.Spells, ← Text.foldUpper_eq_iff, a.foldUpper_name]
  rw [hspells]
  constructor
  · intro h
    unfold parse? at h
    split at h
    case h_10 => cases h
    all_goals
      obtain rfl := Option.some.inj h
      assumption
  · intro h
    unfold parse?
    rw [h]
    cases a <;> rfl

theorem Action.parse?_isSome_iff (s : String) :
    (Action.parse? s).isSome = true ↔ ∃ a : Action, Text.Spells s a.name := by
  simp only [Option.isSome_iff_exists, parse?_eq_some_iff]

theorem Protocol.parse?_isSome_iff {s : String} (h : Text.trim s ≠ "") :
    (Protocol.parse? s).isSome = true ↔ ∃ p : Protocol, Text.Spells s p.name := by
  constructor
  · intro hsome
    unfold parse? at hsome
    split at hsome
    · next hfold => exact ⟨.tcp, hfold⟩
    · next hfold => exact ⟨.udp, hfold⟩
    · next hfold => exact ⟨.icmp, hfold⟩
    · next hfold => exact absurd (Text.foldLower_eq_empty_iff.mp hfold) h
    · next hfold => exact ⟨.all, hfold⟩
    · cases hsome
  · rintro ⟨p, hp⟩
    unfold parse?
    rw [hp]
    cases p <;> rfl

theorem Chain.isName_iff {cs : List Char} :
    isName cs = true ↔ 1 ≤ cs.length ∧ cs.length ≤ 28 ∧
      (∀ c ∈ cs, c.isAlphanum = true ∨ c = '_' ∨ c = '-') ∧ cs.head? ≠ some '-' := by
  have hchar : ∀ c, isNameChar c = true ↔ c.isAlphanum = true ∨ c = '_' ∨ c = '-' := by
    intro c
    simp [isNameChar, Text.isAsciiAlphanumeric, Char.isAlphanum, or_assoc]
  have hnonempty : (!cs.isEmpty) = true ↔ 1 ≤ cs.length := by
    cases cs <;> simp
  have hlength : decide (cs.length ≤ maxNameLength) = true ↔ cs.length ≤ 28 := decide_eq_true_iff
  simp only [isName, Bool.and_eq_true, hnonempty, hlength, bne_iff_ne, List.all_eq_true, hchar]
  constructor
  · rintro ⟨⟨⟨hone, hmax⟩, hhyphen⟩, hall⟩
    exact ⟨hone, hmax, hall, hhyphen⟩
  · rintro ⟨hone, hmax, hall, hhyphen⟩
    exact ⟨⟨⟨hone, hmax⟩, hhyphen⟩, hall⟩

theorem Chain.parse?_isSome_iff (s : String) : (Chain.parse? s).isSome = true ↔ Chain.Named s := by
  unfold Named
  rw [← String.length_toList, ← isName_iff]
  unfold parse?
  split
  case h_6 h1 h2 h3 h4 h5 =>
    have hcustom : Text.trim s ∉ ["PREROUTING", "INPUT", "FORWARD", "OUTPUT", "POSTROUTING"] := by
      simp only [List.mem_cons, List.not_mem_nil, or_false, not_or]
      exact ⟨h1, h2, h3, h4, h5⟩
    split <;> simp_all
  all_goals
    next hbuiltIn => simp [hbuiltIn]

namespace Port

theorem number?_eq_some_iff_isNumeral {cs : List Char} {n : Nat} :
    number? cs = some n ↔ Text.IsNumeral cs n ∧ 1 ≤ n ∧ n ≤ 65535 := by
  rw [number?_eq_some_iff, Text.decimal?_eq_some_iff_isNumeral]
  rfl

theorem splitOn_colon {low high : List Char} (hlow : ':' ∉ low) (hhigh : ':' ∉ high) :
    (low ++ ':' :: high).splitOn ':' = [low, high] := by
  rw [List.splitOn_eq_splitOnP, List.splitOnP_append_cons _ _ (by simp), ← List.splitOn_eq_splitOnP,
    ← List.splitOn_eq_splitOnP, List.splitOn_eq_singleton hlow, List.splitOn_eq_singleton hhigh]
  rfl

theorem parse?_isSome_iff (s : String) : (Port.parse? s).isSome = true ↔ Port.Written s := by
  rw [parse?_eq_ofParts]
  constructor
  · intro h
    have hparts : [':'].intercalate (s.toList.splitOn ':') = s.toList :=
      List.intercalate_splitOn ':'
    unfold ofParts at h
    split at h
    · next low hlow =>
      rw [hlow] at hparts
      obtain ⟨n, hn⟩ := Option.isSome_iff_exists.mp (Option.isSome_map.symm.trans h)
      obtain ⟨hnumeral, hbounds⟩ := number?_eq_some_iff_isNumeral.mp hn
      refine .inl ⟨n, ?_, hbounds⟩
      rw [← hparts]
      simpa [List.intercalate] using hnumeral
    · next low high hboth =>
      rw [hboth] at hparts
      split at h
      · next m n hm hn =>
        split at h
        · next hle =>
          obtain ⟨hlow, hone, -⟩ := number?_eq_some_iff_isNumeral.mp hm
          obtain ⟨hhigh, -, hmax⟩ := number?_eq_some_iff_isNumeral.mp hn
          refine .inr ⟨low, high, m, n, ?_, hlow, hhigh, hone, hle, hmax⟩
          rw [← hparts]
          simp [List.intercalate]
        · cases h
      · cases h
    · cases h
  · rintro (⟨n, hnumeral, hbounds⟩ | ⟨low, high, m, n, htext, hlow, hhigh, hone, hle, hmax⟩)
    · rw [List.splitOn_eq_singleton (Text.colon_notMem_of_isNumeral hnumeral), ofParts,
        number?_eq_some_iff_isNumeral.mpr ⟨hnumeral, hbounds⟩]
      rfl
    · rw [htext, splitOn_colon (Text.colon_notMem_of_isNumeral hlow)
        (Text.colon_notMem_of_isNumeral hhigh), ofParts,
        number?_eq_some_iff_isNumeral.mpr ⟨hlow, hone, by omega⟩,
        number?_eq_some_iff_isNumeral.mpr ⟨hhigh, by omega, hmax⟩]
      simp [hle]

end Port

/-! ## All fields together -/

theorem FirstUnmet.exists_unmet {all : List Requirement} {q : Requirement} (h : FirstUnmet all q) :
    ∃ p ∈ all, ¬ p.met := by
  induction h with
  | here unmet => exact ⟨_, .head _, unmet⟩
  | later _ _ ih =>
    obtain ⟨p, hp, hunmet⟩ := ih
    exact ⟨p, .tail _ hp, hunmet⟩

theorem FirstUnmet.unique {all : List Requirement} {p q : Requirement} (hp : FirstUnmet all p)
    (hq : FirstUnmet all q) : p = q := by
  induction hp with
  | here unmet =>
    cases hq with
    | here => rfl
    | later met => exact absurd met unmet
  | later met _ ih =>
    cases hq with
    | here unmet => exact absurd met unmet
    | later _ first => exact ih first

/-- An outcome that is decided by requirements: a success if all of them are met, and otherwise the
error of the first that is not. -/
inductive DecidedBy {α : Type} (all : List Requirement) : Except Fault α → Prop
  | ok {a : α} (met : ∀ q ∈ all, q.met) : DecidedBy all (.ok a)
  | error {f : Fault} {q : Requirement} (first : FirstUnmet all q)
      (reported : f.error = .validation q.field q.message) : DecidedBy all (.error f)

section DecidedBy
variable {α β : Type} {q : Requirement} {rest : List Requirement}

theorem decidedBy_ok {a : α} (h : q.met) : DecidedBy [q] (.ok a : Except Fault α) :=
  .ok fun _ hp => List.mem_singleton.mp hp ▸ h

/-- What comes after a success is decided by the requirements that are left. -/
theorem DecidedBy.bind {x : Except Fault α} {next : α → Except Fault β} (hx : DecidedBy [q] x)
    (hnext : ∀ a, x = .ok a → DecidedBy rest (next a)) : DecidedBy (q :: rest) (x >>= next) := by
  cases hx with
  | error first reported =>
    cases first with
    | here unmet => exact .error (.here unmet) reported
    | later _ first => cases first
  | @ok a met =>
    have hmet : q.met := met q (.head _)
    have hrest := hnext a rfl
    change DecidedBy (q :: rest) (next a)
    cases hresult : next a with
    | error f =>
      rw [hresult] at hrest
      cases hrest with
      | error first reported => exact .error (.later hmet first) reported
    | ok b =>
      rw [hresult] at hrest
      cases hrest with
      | ok met => exact .ok (List.forall_mem_cons.mpr ⟨hmet, met⟩)

theorem decidedBy_unlessSome {value : Option α} {f : Fault} (hmet : value.isSome = true ↔ q.met)
    (herror : f.error = .validation q.field q.message) : DecidedBy [q] (f.unlessSome value) := by
  cases value with
  | none => exact .error (.here (mt hmet.mpr (by simp))) herror
  | some a => exact decidedBy_ok (hmet.mp rfl)

theorem DecidedBy.map {x : Except Fault α} (h : DecidedBy rest x) (f : α → β) :
    DecidedBy rest (x.map f) := by
  cases h with
  | error first reported => exact .error first reported
  | ok met => exact .ok met

end DecidedBy

namespace Rule

theorem ifPresent_of_none {value : Option String} {good : String → Prop}
    (h : Text.present value = none) : IfPresent value good := by
  intro v hv
  rw [h] at hv
  cases hv

theorem ifPresent_iff {value : Option String} {good : String → Prop} {v : String}
    (h : Text.present value = some v) : IfPresent value good ↔ good v := by
  unfold IfPresent
  simp [h]

theorem decidedBy_protocolOf (value : Option String) :
    DecidedBy [protocolField value] (protocolOf value) := by
  unfold protocolOf
  cases hv : Text.present value with
  | none => exact decidedBy_ok (ifPresent_of_none hv)
  | some v =>
    have hblank : Text.trim v ≠ "" := by
      rw [Text.trim_of_present hv]
      simpa using (Option.filter_eq_some_iff.mp hv).2
    have hgiven : Text.trim v = given value := by
      rw [Text.trim_of_present hv, given, hv]
      rfl
    have herror : (Fault.unknownProtocol v).error =
        .validation (protocolField value).field (protocolField value).message :=
      congrArg (fun name => Error.validation "protocol"
        s!"unknown protocol '{Text.foldLower name}'") hgiven
    refine decidedBy_unlessSome ?_ herror
    rw [Protocol.parse?_isSome_iff hblank, protocolField, ifPresent_iff hv]

theorem decidedBy_argument (field : String) (value : Option String) :
    DecidedBy [plainField field value] (argument field value) := by
  unfold argument
  cases hv : Text.present value with
  | none => exact decidedBy_ok (ifPresent_of_none hv)
  | some v =>
    have hplain : (v.toList.all isArgumentChar) = true ↔ (plainField field value).met := by
      rw [plainField, ifPresent_iff hv, List.all_eq_true]
      simp only [Command.isArgumentChar_iff, IsPlain]
    have herror : (Fault.unsafeText field v).error =
        .validation (plainField field value).field (plainField field value).message := by
      unfold plainField given
      rw [hv]
      rfl
    dsimp only
    split
    · next hall => exact decidedBy_ok (hplain.mp hall)
    · next hall => exact .error (.here (mt hplain.mpr hall)) herror

theorem decidedBy_portArgument (field : String) (value : Option String) :
    DecidedBy [portField field value] (portArgument field value) := by
  unfold portArgument
  cases hv : Text.present value with
  | none => exact decidedBy_ok (ifPresent_of_none hv)
  | some v =>
    have herror : (Fault.invalidPort field v).error =
        .validation (portField field value).field (portField field value).message := by
      unfold portField given
      rw [hv]
      rfl
    refine (decidedBy_unlessSome ?_ herror).map some
    rw [Port.parse?_isSome_iff, portField, ifPresent_iff hv]

theorem isSourceNat_iff {s : String} {a : Action} (h : Action.parse? s = some a) :
    a.isSourceNat = true ↔ Text.Spells s "SNAT" ∨ Text.Spells s "MASQUERADE" := by
  have hsnat : Text.Spells s "SNAT" ↔ a = .snat := by
    rw [show "SNAT" = Action.snat.name from rfl, ← Action.parse?_eq_some_iff, h, Option.some.injEq]
  have hmasquerade : Text.Spells s "MASQUERADE" ↔ a = .masquerade := by
    rw [show "MASQUERADE" = Action.masquerade.name from rfl, ← Action.parse?_eq_some_iff, h,
      Option.some.injEq]
  rw [hsnat, hmasquerade]
  cases a <;> simp [Action.isSourceNat]

/-- The last demand is on two fields at once, which have been read by then. -/
theorem decidedBy_refusal {action : String} {a : Action} {destIp destination : Option String}
    (haction : Action.parse? action = some a)
    (hdestination : argument "destIp" destIp = .ok destination) (c : Command) :
    DecidedBy [sourceNatField action destIp]
      (if a.isSourceNat && destination.isSome then .error (.destinationRefused a) else .ok c) := by
  have hmet : (sourceNatField action destIp).met ↔
      ¬ (a.isSourceNat && destination.isSome) = true := by
    rw [sourceNatField, ← isSourceNat_iff haction, ← eq_present_of_argument hdestination]
    cases destination <;> simp
  have hname : a.name = Text.foldUpper (Text.trim action) := by
    rw [← a.foldUpper_name, Text.foldUpper_eq_iff]
    exact (Action.parse?_eq_some_iff.mp haction).symm
  have herror : (Fault.destinationRefused a).error =
      .validation (sourceNatField action destIp).field (sourceNatField action destIp).message :=
    congrArg (fun name => Error.validation "destIp"
      s!"{name} does not take a destination address") hname
  split
  · next hrefused => exact .error (.here fun h => hmet.mp h hrefused) herror
  · next haccepted => exact decidedBy_ok (hmet.mpr haccepted)

/-- The requirements decide. -/
theorem decidedBy_compile (r : Rule) : DecidedBy r.requirements r.compile := by
  unfold compile requirements
  refine (decidedBy_unlessSome (Table.parse?_isSome_iff r.table) rfl).bind fun table _ => ?_
  refine (decidedBy_unlessSome (Chain.parse?_isSome_iff r.chain) rfl).bind fun chain _ => ?_
  refine (decidedBy_unlessSome (Action.parse?_isSome_iff r.action) rfl).bind
    fun action haction => ?_
  refine (decidedBy_protocolOf _).bind fun protocol _ => ?_
  refine (decidedBy_argument _ _).bind fun source _ => ?_
  refine (decidedBy_portArgument _ _).bind fun sourcePort _ => ?_
  refine (decidedBy_argument _ _).bind fun destination hdestination => ?_
  refine (decidedBy_portArgument _ _).bind fun destinationPort _ => ?_
  refine (decidedBy_argument _ _).bind fun interface _ => ?_
  exact decidedBy_refusal (Fault.unlessSome_ok haction) hdestination _

/-- A rule has a command exactly when all that is asked of its fields is met; otherwise it fails
with a validation error of the first field that falls short. -/
theorem compile_decided (r : Rule) :
    ((∃ c, r.compile = .ok c) ↔ ∀ q ∈ r.requirements, q.met) ∧
    (∀ e, (∃ f, r.compile = .error f ∧ f.error = e) ↔
      ∃ q, FirstUnmet r.requirements q ∧ e = .validation q.field q.message) ∧
    r.requirements.map Requirement.field =
      ["table", "chain", "action", "protocol", "sourceIp", "sourcePort", "destIp", "destPort",
       "interface", "destIp"] := by
  have hdecided := decidedBy_compile r
  cases hcompile : r.compile with
  | ok c =>
    rw [hcompile] at hdecided
    cases hdecided with
    | ok met =>
      refine ⟨⟨fun _ => met, fun _ => ⟨c, rfl⟩⟩, fun e => ⟨?_, ?_⟩, rfl⟩
      · rintro ⟨f, hf, -⟩
        cases hf
      · rintro ⟨q, hfirst, -⟩
        obtain ⟨p, hp, hunmet⟩ := hfirst.exists_unmet
        exact absurd (met p hp) hunmet
  | error f =>
    rw [hcompile] at hdecided
    cases hdecided with
    | @error _ q first reported =>
      refine ⟨⟨?_, ?_⟩, fun e => ⟨?_, ?_⟩, rfl⟩
      · rintro ⟨c, hc⟩
        cases hc
      · intro hall
        obtain ⟨p, hp, hunmet⟩ := first.exists_unmet
        exact absurd (hall p hp) hunmet
      · rintro ⟨g, hg, rfl⟩
        obtain rfl := Except.error.inj hg
        exact ⟨q, first, reported⟩
      · rintro ⟨p, hp, rfl⟩
        obtain rfl := hp.unique first
        exact ⟨f, rfl, reported⟩

end Rule
end FirewallRollout
