import FirewallRollout.Proofs.Rule.Record
import Mathlib.Logic.Relation

/-!
# Spellings of a record

The record of a rule may be spelled in many ways: in any order, under either name of a field, with
foreign entries, with ports as numbers or texts, and with or without what it says by default. One
change of spelling leaves the rule as it is, and so does any number of them. A record that gives a
field twice, leaves out what has no default or gives null to what is not optional is no rule.
-/
namespace FirewallRollout.Rule

/-- One change in the spelling of a record. -/
inductive Respelled : List (String × Datum) → List (String × Datum) → Prop
  | permuted {entries entries' : List (String × Datum)} (h : entries.Perm entries') :
    Respelled entries entries'
  | renamed (before after : List (String × Datum)) (d : Datum) {f : Field} (hf : f ∈ layout)
    {key key' : String} (h : f.named key = true) (h' : f.named key' = true) :
    Respelled (before ++ (key, d) :: after) (before ++ (key', d) :: after)
  /-- An entry is added under a key that names no field. -/
  | foreign (before after : List (String × Datum)) (d : Datum) {key : String}
    (h : ∀ f ∈ layout, f.named key = false) :
    Respelled (before ++ after) (before ++ (key, d) :: after)
  /-- The number of a port is spelled as its decimal text. -/
  | portSpelled (before after : List (String × Datum)) (n : Int) {f : Field} (hf : f ∈ layout)
    (hport : IsPort f.name) {key : String} (h : f.named key = true) :
    Respelled (before ++ (key, .integer n) :: after)
      (before ++ (key, .text (toString n)) :: after)
  /-- A field that was left out is given what it is by default. -/
  | spelledOut (before after : List (String × Datum)) {d : Datum} {f : Field} (hf : f ∈ layout)
    (hd : (f.name, d) ∈ defaults) {key : String} (h : f.named key = true)
    (habsent : ∀ e ∈ before ++ after, f.named e.1 = false) :
    Respelled (before ++ after) (before ++ (key, d) :: after)
  /-- A field that is given what it is by default is left out. -/
  | leftOut (before after : List (String × Datum)) {d : Datum} {f : Field} (hf : f ∈ layout)
    (hd : (f.name, d) ∈ defaults) {key : String} (h : f.named key = true) :
    Respelled (before ++ (key, d) :: after) (before ++ after)

/-- The fields that have no default. -/
def required : List String := ["id", "serverId", "chain", "action"]

/-- The fields that are not optional. -/
def nonOptional : List String :=
  required ++ ["table", "priority", "isEnabled", "createdAt", "updatedAt"]

variable {surplus : Surplus} {entries entries' : List (String × Datum)} {r : Rule} {f : Field}
  {key : String}

theorem ofDatum?_record_eq_some_iff :
    ofDatum? surplus (.record entries) = some r ↔
      ((layout.known entries).map Prod.fst).Nodup ∧ ReadFrom (layout.known entries) r := by
  simp only [ofDatum?_eq_some_iff, Layout.read?_record_eq_some_iff]
  constructor
  · rintro ⟨fields, ⟨hnodup, rfl⟩, hread⟩
    exact ⟨hnodup, hread⟩
  · rintro ⟨hnodup, hread⟩
    exact ⟨_, ⟨hnodup, rfl⟩, hread⟩

theorem known_middle (hf : f ∈ layout) (hkey : f.named key = true)
    (before after : List (String × Datum)) (d : Datum) :
    layout.known (before ++ (key, d) :: after) =
      layout.known before ++ (f.name, d) :: layout.known after := by
  rw [Layout.known_append, Layout.known_cons_named layout_distinct hf hkey]

/-- One change of spelling leaves every field once and each given what makes no difference. -/
theorem Respelled.givenAlike (h : Respelled entries entries')
    (hnodup : ((layout.known entries).map Prod.fst).Nodup) :
    ((layout.known entries').map Prod.fst).Nodup ∧ ∀ name,
      GivenAlike name ((layout.known entries).lookup name)
        ((layout.known entries').lookup name) := by
  cases h with
  | permuted hperm =>
    have hknown : (layout.known entries).Perm (layout.known entries') := hperm.filterMap _
    refine ⟨(hknown.map Prod.fst).nodup_iff.mp hnodup, fun name => ?_⟩
    rw [Assoc.lookup_perm hknown hnodup]
    exact .same _
  | renamed before after d hf hkey hkey' =>
    rw [known_middle hf hkey] at hnodup ⊢
    rw [known_middle hf hkey']
    exact ⟨hnodup, fun _ => .same _⟩
  | foreign before after d hkey =>
    rw [Layout.known_append] at hnodup ⊢
    rw [Layout.known_append, Layout.known_cons_foreign hkey]
    exact ⟨hnodup, fun _ => .same _⟩
  | @portSpelled before after n f hf hport key hkey =>
    rw [known_middle hf hkey] at hnodup ⊢
    rw [known_middle hf hkey]
    have hnodup' : ((layout.known before ++ (f.name, Datum.text (toString n)) ::
        layout.known after).map Prod.fst).Nodup := by
      simpa using hnodup
    refine ⟨hnodup', fun name => ?_⟩
    rw [Assoc.lookup_middle hnodup, Assoc.lookup_middle hnodup']
    split
    next hname => exact .portSpelled (hname ▸ hport) n
    · exact .same _
  | @spelledOut before after d f hf hd key hkey habsent =>
    have hnotMem := Layout.notMem_known layout_distinct hf habsent
    rw [Layout.known_append] at hnodup hnotMem
    rw [known_middle hf hkey, Layout.known_append]
    have hnodup' : ((layout.known before ++ (f.name, d) :: layout.known after).map Prod.fst).Nodup :=
      (List.perm_middle.map Prod.fst).nodup_iff.mpr (List.nodup_cons.mpr ⟨hnotMem, hnodup⟩)
    refine ⟨hnodup', fun name => ?_⟩
    rw [Assoc.lookup_middle hnodup']
    split
    next hname =>
      subst hname
      rw [Assoc.lookup_eq_none_of_notMem hnotMem]
      exact .spelledOut hd
    · exact .same _
  | @leftOut before after d f hf hd key hkey =>
    rw [known_middle hf hkey] at hnodup ⊢
    rw [Layout.known_append]
    obtain ⟨hnotMem, hnodup'⟩ :=
      List.nodup_cons.mp ((List.perm_middle.map Prod.fst).nodup_iff.mp hnodup)
    refine ⟨hnodup', fun name => ?_⟩
    rw [Assoc.lookup_middle hnodup]
    split
    next hname =>
      subst hname
      rw [Assoc.lookup_eq_none_of_notMem hnotMem]
      exact .leftOut hd
    · exact .same _

/-- One change of spelling leaves the rule as it is. -/
theorem Respelled.ofDatum? (h : Respelled entries entries')
    (hread : ofDatum? surplus (.record entries) = some r) :
    Rule.ofDatum? surplus (.record entries') = some r := by
  rw [ofDatum?_record_eq_some_iff] at hread ⊢
  obtain ⟨hnodup, halike⟩ := h.givenAlike hread.1
  exact ⟨hnodup, hread.2.alike halike⟩

/-- Any number of changes of spelling leave the rule as it is. -/
theorem ofDatum?_of_respelled (h : Relation.ReflTransGen Respelled entries entries')
    (hread : ofDatum? surplus (.record entries) = some r) :
    ofDatum? surplus (.record entries') = some r := by
  induction h with
  | refl => exact hread
  | tail _ hstep ih => exact hstep.ofDatum? ih

/-! ## Records of no rule -/

/-- What has no default is given. -/
theorem ReadFrom.lookup_ne_none {fields : Fields} {name : String} (h : ReadFrom fields r)
    (hname : name ∈ required) : fields.lookup name ≠ none := by
  have hgiven : ∀ {α : Type} {read : Datum → Option α} {v : α},
      fields.required name read = some v → fields.lookup name ≠ none := by
    intro α read v hv hnone
    rw [Fields.required, hnone] at hv
    cases hv
  simp only [required, List.mem_cons, List.not_mem_nil, or_false] at hname
  rcases hname with rfl | rfl | rfl | rfl
  · exact hgiven h.id
  · exact hgiven h.server
  · exact hgiven h.chain
  · exact hgiven h.action

/-- What is not optional is not null. -/
theorem ReadFrom.lookup_ne_null {fields : Fields} {name : String} (h : ReadFrom fields r)
    (hname : name ∈ nonOptional) : fields.lookup name ≠ some .null := by
  have hrequired : ∀ {α : Type} {read : Datum → Option α} {v : α}, read .null = none →
      fields.required name read = some v → fields.lookup name ≠ some .null := by
    intro α read v hnull hv hlookup
    rw [Fields.required, hlookup, Option.bind_some, hnull] at hv
    cases hv
  have hdefaulted : ∀ {α : Type} {read : Datum → Option α} {v fallback : α}, read .null = none →
      fields.defaulted name read fallback = some v → fields.lookup name ≠ some .null := by
    intro α read v fallback hnull hv hlookup
    unfold Fields.defaulted at hv
    rw [hlookup] at hv
    cases hnull.symm.trans hv
  simp only [nonOptional, required, List.cons_append, List.nil_append, List.mem_cons,
    List.not_mem_nil, or_false] at hname
  rcases hname with rfl | rfl | rfl | rfl | rfl | rfl | rfl | rfl | rfl
  · exact hrequired rfl h.id
  · exact hrequired rfl h.server
  · exact hrequired rfl h.chain
  · exact hrequired rfl h.action
  · exact hdefaulted rfl h.table
  · exact hdefaulted rfl h.priority
  · exact hdefaulted rfl h.enabled
  · exact hdefaulted rfl h.createdAt
  · exact hdefaulted rfl h.updatedAt

theorem ofDatum?_eq_none_of_twice (hf : f ∈ layout) (surplus : Surplus)
    (htwice : 2 ≤ entries.countP fun e => f.named e.1) :
    ofDatum? surplus (.record entries) = none := by
  rw [ofDatum?, Layout.read?_eq_none_of_twice layout_distinct hf surplus htwice]
  rfl

theorem ofDatum?_eq_none_of_absent (hf : f ∈ layout) (hname : f.name ∈ required)
    (surplus : Surplus) (habsent : ∀ e ∈ entries, f.named e.1 = false) :
    ofDatum? surplus (.record entries) = none := by
  rw [Option.eq_none_iff_forall_ne_some]
  intro r hread
  have hgiven := (ofDatum?_record_eq_some_iff.mp hread).2.lookup_ne_none hname
  exact hgiven (Assoc.lookup_eq_none_of_notMem (Layout.notMem_known layout_distinct hf habsent))

theorem ofDatum?_eq_none_of_null (hf : f ∈ layout) (hname : f.name ∈ nonOptional)
    (surplus : Surplus) (hkey : f.named key = true) (hnull : (key, .null) ∈ entries) :
    ofDatum? surplus (.record entries) = none := by
  rw [Option.eq_none_iff_forall_ne_some]
  intro r hread
  obtain ⟨hnodup, hfields⟩ := ofDatum?_record_eq_some_iff.mp hread
  refine hfields.lookup_ne_null hname ?_
  have hmem := Layout.mem_known layout_distinct hf hkey hnull
  rw [Assoc.lookup_eq_find?, Keyed.find?_of_mem Prod.fst hnodup hmem]
  rfl

/-- The rule of a record is the same in any spelling of it; a record with a field given twice, with a
field left out that has no default or with a null for what is not optional is no rule. -/
theorem spelling_ignored (surplus : Surplus) (entries : List (String × Datum)) :
    (∀ r entries', ofDatum? surplus (.record entries) = some r →
      Relation.ReflTransGen Respelled entries entries' →
        ofDatum? surplus (.record entries') = some r) ∧
    ((∃ f ∈ layout, 2 ≤ entries.countP fun e => f.named e.1) →
      ofDatum? surplus (.record entries) = none) ∧
    ((∃ f ∈ layout, f.name ∈ required ∧ ∀ e ∈ entries, f.named e.1 = false) →
      ofDatum? surplus (.record entries) = none) ∧
    ((∃ f ∈ layout, f.name ∈ nonOptional ∧ ∃ key, f.named key = true ∧ (key, .null) ∈ entries) →
      ofDatum? surplus (.record entries) = none) := by
  refine ⟨fun r entries' hread h => ofDatum?_of_respelled h hread, ?_, ?_, ?_⟩
  · rintro ⟨f, hf, htwice⟩
    exact ofDatum?_eq_none_of_twice hf surplus htwice
  · rintro ⟨f, hf, hname, habsent⟩
    exact ofDatum?_eq_none_of_absent hf hname surplus habsent
  · rintro ⟨f, hf, hname, key, hkey, hnull⟩
    exact ofDatum?_eq_none_of_null hf hname surplus hkey hnull

/-- A record with a port for a number and a priority that it has by default, in another order and
under other names; and with its server under both names, without its chain, and with a null for its
table. -/
theorem spelling_ignored_ssh :
    let entries : List (String × Datum) :=
      [("id", .integer 1), ("serverId", .text "web"), ("chain", .text "INPUT"),
       ("action", .text "ACCEPT"), ("sourcePort", .integer 22), ("priority", .integer 0)]
    let entries' : List (String × Datum) :=
      [("note", .unreadable), ("dest_ip", .null), ("source_port", .text "22"),
       ("action", .text "ACCEPT"), ("chain", .text "INPUT"), ("server_id", .text "web"),
       ("id", .integer 1)]
    let r : Rule :=
      { id := .number 1, server := "web", chain := "INPUT", action := "ACCEPT",
        sourcePort := some "22" }
    ofDatum? .refused (.record entries) = some r ∧
      ofDatum? .refused (.record entries') = some r ∧
      ofDatum? .refused (.record (("server_id", .text "db") :: entries)) = none ∧
      ofDatum? .refused (.record (entries.eraseIdx 2)) = none ∧
      ofDatum? .refused (.record (("table", .null) :: entries)) = none := by
  intro entries entries' r
  have hread : ofDatum? .refused (.record entries) = some r := by decide +kernel
  have hserver : layout[1] ∈ layout := List.getElem_mem _
  have hport : layout[6] ∈ layout := List.getElem_mem _
  have hpriority : layout[11] ∈ layout := List.getElem_mem _
  have hdest : layout[7] ∈ layout := List.getElem_mem _
  let named : List (String × Datum) :=
    [("id", .integer 1), ("server_id", .text "web"), ("chain", .text "INPUT"),
     ("action", .text "ACCEPT")]
  -- the server and the port under their other names
  have hnames : Relation.ReflTransGen Respelled entries
      (named ++ [("source_port", .integer 22), ("priority", .integer 0)]) :=
    .tail (.single (.renamed (entries.take 1) (entries.drop 2) _ hserver (by decide) (by decide)))
      (.renamed named [("priority", .integer 0)] _ hport (by decide) (by decide))
  -- the port as a text, without the priority
  have hvalues : Relation.ReflTransGen Respelled entries
      (named ++ [("source_port", .text "22")]) :=
    (hnames.tail (.portSpelled named [("priority", .integer 0)] 22 hport (by decide)
      (by decide))).tail (.leftOut (named ++ [("source_port", .text "22")]) [] hpriority
        (by simp [layout, defaults]) (by decide))
  -- a null, a foreign entry, and all of them the other way round
  have hadded : Relation.ReflTransGen Respelled entries entries'.reverse :=
    (hvalues.tail (.spelledOut (named ++ [("source_port", .text "22")]) [] hdest
      (by simp [layout, defaults]) (by decide) (by decide))).tail
      (.foreign (named ++ [("source_port", .text "22"), ("dest_ip", .null)]) [] _ (by decide))
  refine ⟨hread, ?_, ?_, ?_, ?_⟩
  · exact (spelling_ignored .refused entries).1 r entries' hread
      (hadded.tail (.permuted (List.reverse_perm _)))
  · exact (spelling_ignored .refused _).2.1 ⟨_, hserver, by decide⟩
  · exact (spelling_ignored .refused _).2.2.1 ⟨layout[3], List.getElem_mem _, by decide, by decide⟩
  · exact (spelling_ignored .refused _).2.2.2
      ⟨layout[2], List.getElem_mem _, by decide, "table", by decide, .head _⟩

end FirewallRollout.Rule
