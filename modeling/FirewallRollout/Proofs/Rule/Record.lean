import FirewallRollout.Rule.Basic
import FirewallRollout.Proofs.Datum.Layout
import FirewallRollout.Proofs.Outcome
import FirewallRollout.Proofs.Storage.Row

/-!
# Rules as records

The fields of a record that are a rule, one by one. A field that may be left out has a value that
says the same, so that a rule stays what it is when such values are written or left out.
-/
namespace FirewallRollout

theorem Datum.int64?_ofInt64 (n : Int64) : (Datum.ofInt64 n).int64? = some n := by
  have hmin : Int64.minValue.toInt ≤ n.toInt := Int64.minValue_le_toInt n
  have hmax : n.toInt ≤ Int64.maxValue.toInt := Int64.toInt_le n
  rw [ofInt64, int64?, Text.int64?, decide_eq_true hmin, decide_eq_true hmax, Int64.ofInt_toInt]
  rfl

theorem RuleId.ofDatum?_toDatum (id : RuleId) : ofDatum? id.toDatum = some id := by
  cases id with
  | number n => exact congrArg (Option.map number) (Datum.int64?_ofInt64 n)
  | text s => rfl

namespace Rule

theorem layout_distinct : layout.Distinct := by decide

/-- The fields of a record are those of a rule. -/
structure ReadFrom (fields : Fields) (r : Rule) : Prop where
  id : fields.required "id" RuleId.ofDatum? = some r.id
  server : fields.required "serverId" Datum.text? = some r.server
  table : fields.defaulted "table" Datum.text? Table.filter.name = some r.table
  chain : fields.required "chain" Datum.text? = some r.chain
  action : fields.required "action" Datum.text? = some r.action
  sourceIp : fields.optional "sourceIp" Datum.text? = some r.sourceIp
  sourcePort : fields.optional "sourcePort" portText? = some r.sourcePort
  destIp : fields.optional "destIp" Datum.text? = some r.destIp
  destPort : fields.optional "destPort" portText? = some r.destPort
  protocol : fields.optional "protocol" Datum.text? = some r.protocol
  interface : fields.optional "interface" Datum.text? = some r.interface
  priority : fields.defaulted "priority" Datum.int64? 0 = some r.priority
  enabled : fields.defaulted "isEnabled" Datum.bool? true = some r.enabled
  comment : fields.optional "comment" Datum.text? = some r.comment
  destServer : fields.optional "destServerId" Datum.text? = some r.destServer
  destEgress : fields.optional "destEgressId" Datum.text? = some r.destEgress
  createdAt : fields.defaulted "createdAt" Datum.int64? 0 = some r.createdAt
  updatedAt : fields.defaulted "updatedAt" Datum.int64? 0 = some r.updatedAt

theorem ofDatum?_eq_some_iff {surplus : Surplus} {d : Datum} {r : Rule} :
    ofDatum? surplus d = some r ↔
      ∃ fields, layout.read? surplus d = some fields ∧ ReadFrom fields r := by
  rw [ofDatum?]
  -- from the first read on: from the last one, each would go through all that follow it again
  simp only [↓bind_eq_some_iff]
  constructor
  · rintro ⟨fields, hfields, id, hid, server, hserver, table, htable, chain, hchain, action,
      haction, sourceIp, hsourceIp, sourcePort, hsourcePort, destIp, hdestIp, destPort, hdestPort,
      protocol, hprotocol, interface, hinterface, priority, hpriority, enabled, henabled, comment,
      hcomment, destServer, hdestServer, destEgress, hdestEgress, createdAt, hcreatedAt, updatedAt,
      hupdatedAt, hr⟩
    obtain rfl := Option.some.inj hr
    exact ⟨fields, hfields, ⟨hid, hserver, htable, hchain, haction, hsourceIp, hsourcePort, hdestIp,
      hdestPort, hprotocol, hinterface, hpriority, henabled, hcomment, hdestServer, hdestEgress,
      hcreatedAt, hupdatedAt⟩⟩
  · rintro ⟨fields, hfields, h⟩
    exact ⟨fields, hfields, _, h.id, _, h.server, _, h.table, _, h.chain, _, h.action, _, h.sourceIp,
      _, h.sourcePort, _, h.destIp, _, h.destPort, _, h.protocol, _, h.interface, _, h.priority, _,
      h.enabled, _, h.comment, _, h.destServer, _, h.destEgress, _, h.createdAt, _, h.updatedAt, rfl⟩

/-- The fields that may be left out, each with a value that says the same. -/
def defaults : List (String × Datum) :=
  [("table", .text "filter"), ("sourceIp", .null), ("sourcePort", .null), ("destIp", .null),
   ("destPort", .null), ("protocol", .null), ("interface", .null), ("priority", .integer 0),
   ("isEnabled", .bool true), ("comment", .null), ("destServerId", .null), ("destEgressId", .null),
   ("createdAt", .integer 0), ("updatedAt", .integer 0)]

/-- Whether a field is a port. -/
def IsPort (name : String) : Prop := name = "sourcePort" ∨ name = "destPort"

instance (name : String) : Decidable (IsPort name) := inferInstanceAs (Decidable (_ ∨ _))

/-- A change of what a field is given that makes no difference if the record is that of a rule. -/
inductive GivenAlike (name : String) : Option Datum → Option Datum → Prop
  | same (given : Option Datum) : GivenAlike name given given
  | spelledOut {d : Datum} (h : (name, d) ∈ defaults) : GivenAlike name none (some d)
  | leftOut {d : Datum} (h : (name, d) ∈ defaults) : GivenAlike name (some d) none
  | nullLeftOut : GivenAlike name (some .null) none
  | portSpelled (h : IsPort name) (n : Int) :
    GivenAlike name (some (.integer n)) (some (.text (toString n)))

section Given
variable {α : Type} {fields fields' : Fields} {name : String} {read : Datum → Option α} {v : α}

theorem required_alike (h : fields.required name read = some v)
    (halike : GivenAlike name (fields.lookup name) (fields'.lookup name))
    (hdefaults : ∀ d, (name, d) ∉ defaults) (hport : ¬ IsPort name) (hnull : read .null = none) :
    fields'.required name read = some v := by
  unfold Fields.required at *
  generalize fields.lookup name = given at *
  generalize fields'.lookup name = given' at *
  cases halike with
  | same => exact h
  | spelledOut hd => exact absurd hd (hdefaults _)
  | leftOut hd => exact absurd hd (hdefaults _)
  | nullLeftOut => rw [Option.bind_some, hnull] at h; cases h
  | portSpelled hname => exact absurd hname hport

theorem defaulted_alike {fallback : α} (h : fields.defaulted name read fallback = some v)
    (halike : GivenAlike name (fields.lookup name) (fields'.lookup name))
    (hdefaults : ∀ d, (name, d) ∈ defaults → read d = some fallback) (hport : ¬ IsPort name)
    (hnull : read .null = none) : fields'.defaulted name read fallback = some v := by
  unfold Fields.defaulted at *
  generalize fields.lookup name = given at *
  generalize fields'.lookup name = given' at *
  cases halike with
  | same => exact h
  | spelledOut hd => exact (hdefaults _ hd).trans h
  | leftOut hd => exact (hdefaults _ hd).symm.trans h
  | nullLeftOut => cases hnull.symm.trans h
  | portSpelled hname => exact absurd hname hport

theorem optional_alike {v : Option α} (h : fields.optional name read = some v)
    (halike : GivenAlike name (fields.lookup name) (fields'.lookup name))
    (hdefaults : ∀ d, (name, d) ∈ defaults → d = .null)
    (hport : IsPort name → ∀ n s, read (.integer n) = some s → read (.text (toString n)) = some s) :
    fields'.optional name read = some v := by
  unfold Fields.optional at *
  generalize fields.lookup name = given at *
  generalize fields'.lookup name = given' at *
  cases halike with
  | same => exact h
  | spelledOut hd => obtain rfl := hdefaults _ hd; exact h
  | leftOut hd => obtain rfl := hdefaults _ hd; exact h
  | nullLeftOut => exact h
  | portSpelled hname n =>
    obtain ⟨s, hs, rfl⟩ := Option.map_eq_some_iff.mp h
    exact congrArg (Option.map some) (hport hname n s hs)

end Given

/-- A port number and its decimal text are the same port. -/
theorem portText?_integer {n : Int} {s : String} (h : portText? (.integer n) = some s) :
    portText? (.text (toString n)) = some s := by
  obtain ⟨w, hw, rfl⟩ := Option.map_eq_some_iff.mp h
  obtain rfl : n = w.toNat := Text.word32?_eq_some_iff.mp hw
  rfl

/-- A record stays that of a rule under changes that make no difference. -/
theorem ReadFrom.alike {fields fields' : Fields} {r : Rule} (h : ReadFrom fields r)
    (halike : ∀ name, GivenAlike name (fields.lookup name) (fields'.lookup name)) :
    ReadFrom fields' r where
  id := required_alike h.id (halike _) (by simp [defaults]) (by decide) rfl
  server := required_alike h.server (halike _) (by simp [defaults]) (by decide) rfl
  table := defaulted_alike h.table (halike _) (by simp [defaults, Datum.text?, Table.name])
    (by decide) rfl
  chain := required_alike h.chain (halike _) (by simp [defaults]) (by decide) rfl
  action := required_alike h.action (halike _) (by simp [defaults]) (by decide) rfl
  sourceIp := optional_alike h.sourceIp (halike _) (by simp [defaults]) (by simp [IsPort])
  sourcePort := optional_alike h.sourcePort (halike _) (by simp [defaults]) fun _ _ _ =>
    portText?_integer
  destIp := optional_alike h.destIp (halike _) (by simp [defaults]) (by simp [IsPort])
  destPort := optional_alike h.destPort (halike _) (by simp [defaults]) fun _ _ _ =>
    portText?_integer
  protocol := optional_alike h.protocol (halike _) (by simp [defaults]) (by simp [IsPort])
  interface := optional_alike h.interface (halike _) (by simp [defaults]) (by simp [IsPort])
  priority := defaulted_alike h.priority (halike _) (by simp [defaults]; rfl) (by decide) rfl
  enabled := defaulted_alike h.enabled (halike _) (by simp [defaults]; rfl) (by decide) rfl
  comment := optional_alike h.comment (halike _) (by simp [defaults]) (by simp [IsPort])
  destServer := optional_alike h.destServer (halike _) (by simp [defaults]) (by simp [IsPort])
  destEgress := optional_alike h.destEgress (halike _) (by simp [defaults]) (by simp [IsPort])
  createdAt := defaulted_alike h.createdAt (halike _) (by simp [defaults]; rfl) (by decide) rfl
  updatedAt := defaulted_alike h.updatedAt (halike _) (by simp [defaults]; rfl) (by decide) rfl

/-! ## The record that is written -/

theorem optional_ofText? {fields : Fields} {name : String} {s : Option String}
    {read : Datum → Option String} (hread : ∀ s, read (.text s) = some s)
    (h : fields.lookup name = some (.ofText? s)) : fields.optional name read = some s := by
  unfold Fields.optional
  rw [h]
  cases s with
  | none => rfl
  | some s => exact congrArg (Option.map some) (hread s)

theorem readFrom_byName (r : Rule) : ReadFrom (layout.byName r.values) r where
  id := RuleId.ofDatum?_toDatum r.id
  server := rfl
  table := rfl
  chain := rfl
  action := rfl
  sourceIp := optional_ofText? (fun _ => rfl) rfl
  sourcePort := optional_ofText? (fun _ => rfl) rfl
  destIp := optional_ofText? (fun _ => rfl) rfl
  destPort := optional_ofText? (fun _ => rfl) rfl
  protocol := optional_ofText? (fun _ => rfl) rfl
  interface := optional_ofText? (fun _ => rfl) rfl
  priority := Datum.int64?_ofInt64 r.priority
  enabled := rfl
  comment := optional_ofText? (fun _ => rfl) rfl
  destServer := optional_ofText? (fun _ => rfl) rfl
  destEgress := optional_ofText? (fun _ => rfl) rfl
  createdAt := Datum.int64?_ofInt64 r.createdAt
  updatedAt := Datum.int64?_ofInt64 r.updatedAt

/-- The values of a rule in the layout's order are a record of it. -/
theorem ofDatum?_values (surplus : Surplus) (r : Rule) :
    ofDatum? surplus (.list r.values) = some r :=
  ofDatum?_eq_some_iff.mpr ⟨_, Layout.read?_list rfl surplus, readFrom_byName r⟩

/-- The record that is written of a rule is read as that rule. -/
theorem ofDatum?_toDatum (surplus : Surplus) (r : Rule) : ofDatum? surplus r.toDatum = some r := by
  refine ofDatum?_eq_some_iff.mpr ⟨_, Layout.read?_entries layout_distinct rfl surplus, ?_⟩
  refine (readFrom_byName r).alike fun name => ?_
  rw [Layout.lookup_entries layout_distinct rfl]
  cases (layout.byName r.values).lookup name with
  | none => exact .same none
  | some d =>
    cases d with
    | null => exact .nullLeftOut
    | _ => exact .same _

end Rule
end FirewallRollout
