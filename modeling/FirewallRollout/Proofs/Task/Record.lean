import FirewallRollout.Proofs.Rule.Record
import FirewallRollout.Task.Record

/-!
# Tasks as records

The fields of a record that are a task, one by one. None has a default, so that only nulls may be
left out.
-/
namespace FirewallRollout

theorem Datum.word32?_ofNat (w : UInt32) : (Datum.ofNat w.toNat).word32? = some w :=
  Text.word32?_eq_some_iff.mpr rfl

theorem Status.ofDatum?_name (s : Status) : ofDatum? (.text s.name) = some s := by
  cases s <;> decide +kernel

namespace Task

theorem layout_distinct : layout.Distinct := by decide

/-- The fields of a record are those of a task. -/
structure ReadFrom (fields : Fields) (t : Task) : Prop where
  id : fields.required "taskId" Datum.text? = some t.id
  server : fields.required "serverId" Datum.text? = some t.server
  status : fields.required "status" Status.ofDatum? = some t.status
  total : fields.required "totalRules" Datum.word32? = some t.total
  processed : fields.required "processedRules" Datum.word32? = some t.processed
  failed : fields.required "failedRules" Datum.word32? = some t.failed
  force : fields.required "force" Datum.bool? = some t.force
  errorMessage : fields.optional "errorMessage" Datum.text? = some t.errorMessage
  startedAt : fields.required "startedAt" Datum.int64? = some t.startedAt
  completedAt : fields.optional "completedAt" Datum.int64? = some t.completedAt

theorem ofDatum?_eq_some_iff {d : Datum} {t : Task} :
    ofDatum? d = some t ↔ ∃ fields, layout.read? .refused d = some fields ∧ ReadFrom fields t := by
  rw [ofDatum?]
  simp only [↓bind_eq_some_iff]
  constructor
  · rintro ⟨fields, hfields, id, hid, server, hserver, status, hstatus, total, htotal, processed,
      hprocessed, failed, hfailed, force, hforce, errorMessage, herrorMessage, startedAt, hstartedAt,
      completedAt, hcompletedAt, ht⟩
    obtain rfl := Option.some.inj ht
    exact ⟨fields, hfields, ⟨hid, hserver, hstatus, htotal, hprocessed, hfailed, hforce,
      herrorMessage, hstartedAt, hcompletedAt⟩⟩
  · rintro ⟨fields, hfields, h⟩
    exact ⟨fields, hfields, _, h.id, _, h.server, _, h.status, _, h.total, _, h.processed, _,
      h.failed, _, h.force, _, h.errorMessage, _, h.startedAt, _, h.completedAt, rfl⟩

/-- A record stays that of a task when its nulls are left out. -/
theorem ReadFrom.leftOut {fields fields' : Fields} {t : Task} (h : ReadFrom fields t)
    (hlookup : ∀ name, fields'.lookup name = (fields.lookup name).filter fun d => !d.isNull) :
    ReadFrom fields' t where
  id := (Fields.required_leftOut (hlookup _) rfl).trans h.id
  server := (Fields.required_leftOut (hlookup _) rfl).trans h.server
  status := (Fields.required_leftOut (hlookup _) rfl).trans h.status
  total := (Fields.required_leftOut (hlookup _) rfl).trans h.total
  processed := (Fields.required_leftOut (hlookup _) rfl).trans h.processed
  failed := (Fields.required_leftOut (hlookup _) rfl).trans h.failed
  force := (Fields.required_leftOut (hlookup _) rfl).trans h.force
  errorMessage := (Fields.optional_leftOut (hlookup _)).trans h.errorMessage
  startedAt := (Fields.required_leftOut (hlookup _) rfl).trans h.startedAt
  completedAt := (Fields.optional_leftOut (hlookup _)).trans h.completedAt

theorem readFrom_byName (t : Task) :
    ReadFrom (layout.byName (t.valuesWith .ofInt64)) t where
  id := rfl
  server := rfl
  status := Status.ofDatum?_name t.status
  total := Datum.word32?_ofNat t.total
  processed := Datum.word32?_ofNat t.processed
  failed := Datum.word32?_ofNat t.failed
  force := rfl
  errorMessage := Rule.optional_ofText? (fun _ => rfl) rfl
  startedAt := Datum.int64?_ofInt64 t.startedAt
  completedAt := by
    have hlookup : (layout.byName (t.valuesWith .ofInt64)).lookup "completedAt" =
        some (t.completedAt.elim .null .ofInt64) := rfl
    unfold Fields.optional
    rw [hlookup]
    cases t.completedAt with
    | none => rfl
    | some n => exact congrArg (Option.map some) (Datum.int64?_ofInt64 n)

/-- The values of a task in the layout's order are a record of it. -/
theorem ofDatum?_values (t : Task) : ofDatum? (.list (t.valuesWith .ofInt64)) = some t :=
  ofDatum?_eq_some_iff.mpr ⟨_, Layout.read?_list rfl .refused, readFrom_byName t⟩

/-- The record that is written of a task is read as that task. -/
theorem ofDatum?_toDatum (t : Task) : ofDatum? t.toDatum = some t :=
  ofDatum?_eq_some_iff.mpr ⟨_, Layout.read?_entries layout_distinct rfl .refused,
    (readFrom_byName t).leftOut (Layout.lookup_entries layout_distinct rfl)⟩

end Task
end FirewallRollout
