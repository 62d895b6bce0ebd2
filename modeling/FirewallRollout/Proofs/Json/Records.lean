import FirewallRollout.Proofs.Json.Reading
import FirewallRollout.Proofs.Rule.Record
import FirewallRollout.Proofs.Task.Record

/-!
# Records in JSON

Rules and tasks that are written as JSON, by name or by position, are read as what they were. So a
record that was read once may be written and read again any number of times.
-/
namespace FirewallRollout

namespace Datum

theorem readable_ofText? (s : Option String) : (ofText? s).Readable := by
  cases s with
  | none => exact .null
  | some s => exact .text s

/-- The record of some values has no part that they do not have. -/
theorem readable_entries {layout : Layout} {values : List Datum} (h : ∀ d ∈ values, d.Readable) :
    (record (layout.entries values)).Readable :=
  .record fun _ he => h _ (Layout.mem_entries he).2

end Datum

namespace Rule

/-- The rule that a document is a record of. -/
def ofJson? (document : String) : Option Rule := (Json.parse? document).bind (ofDatum? .refused)

theorem readable_values (r : Rule) : ∀ d ∈ r.values, d.Readable := by
  have hid : r.id.toDatum.Readable := by
    cases r.id with
    | number n => exact .integer n.toInt
    | text s => exact .text s
  simp only [values, List.forall_mem_cons]
  exact ⟨hid, .text _, .text _, .text _, .text _, Datum.readable_ofText? _,
    Datum.readable_ofText? _, Datum.readable_ofText? _, Datum.readable_ofText? _,
    Datum.readable_ofText? _, Datum.readable_ofText? _, .integer _, .bool _,
    Datum.readable_ofText? _, Datum.readable_ofText? _, Datum.readable_ofText? _, .integer _,
    .integer _, List.forall_mem_nil _⟩

/-- A rule that is written by name is read as that rule. -/
theorem ofJson?_toDatum (r : Rule) : ofJson? (Json.write r.toDatum) = some r := by
  rw [ofJson?, toDatum, Json.parse?_write (Datum.readable_entries r.readable_values),
    Option.bind_some]
  exact ofDatum?_toDatum .refused r

/-- A rule that is written by position is read as that rule. -/
theorem ofJson?_values (r : Rule) : ofJson? (Json.write (.list r.values)) = some r := by
  rw [ofJson?, Json.parse?_write (.list r.readable_values), Option.bind_some, ofDatum?_values]

end Rule

namespace Task

/-- The task that a document is a record of. -/
def ofJson? (document : String) : Option Task := (Json.parse? document).bind ofDatum?

theorem readable_values (t : Task) : ∀ d ∈ t.valuesWith .ofInt64, d.Readable := by
  have hcompleted : (t.completedAt.elim .null .ofInt64 : Datum).Readable := by
    cases t.completedAt with
    | none => exact .null
    | some n => exact .integer n.toInt
  simp only [valuesWith, List.forall_mem_cons]
  exact ⟨.text _, .text _, .text _, .integer _, .integer _, .integer _, .bool _,
    Datum.readable_ofText? _, .integer _, hcompleted, List.forall_mem_nil _⟩

/-- A task that is written by name is read as that task. -/
theorem ofJson?_toDatum (t : Task) : ofJson? (Json.write t.toDatum) = some t := by
  rw [ofJson?, toDatum, toDatumWith, Json.parse?_write (Datum.readable_entries t.readable_values),
    Option.bind_some]
  exact ofDatum?_toDatum t

/-- A task that is written by position is read as that task. -/
theorem ofJson?_values (t : Task) :
    ofJson? (Json.write (.list (t.valuesWith .ofInt64))) = some t := by
  rw [ofJson?, Json.parse?_write (.list t.readable_values), Option.bind_some, ofDatum?_values]

end Task

/-- Rules and tasks are read from JSON as they were written, by name and by position; and what was
read from any document is the same after it was written and read again. -/
theorem Json.records_round_trip :
    (∀ r : Rule, Rule.ofJson? (write r.toDatum) = some r ∧
      Rule.ofJson? (write (.list r.values)) = some r) ∧
    (∀ t : Task, Task.ofJson? (write t.toDatum) = some t ∧
      Task.ofJson? (write (.list (t.valuesWith .ofInt64))) = some t) ∧
    ∀ document,
      ((Rule.ofJson? document).bind fun r => Rule.ofJson? (write r.toDatum)) =
        Rule.ofJson? document ∧
      ((Task.ofJson? document).bind fun t => Task.ofJson? (write t.toDatum)) =
        Task.ofJson? document := by
  refine ⟨fun r => ⟨r.ofJson?_toDatum, r.ofJson?_values⟩,
    fun t => ⟨t.ofJson?_toDatum, t.ofJson?_values⟩, fun document => ⟨?_, ?_⟩⟩
  · simp only [Rule.ofJson?_toDatum, Option.bind_fun_some]
  · simp only [Task.ofJson?_toDatum, Option.bind_fun_some]

end FirewallRollout
