import FirewallRollout.Proofs.Keyed
import FirewallRollout.Proofs.Outcome
import FirewallRollout.Proofs.Storage.Row
import FirewallRollout.Storage.Database

/-!
# Rows under identifiers

Which row the table has for a task, and what a write and several writes change about it. A write is
all or nothing: it puts the whole row there, or the table stays as it is.
-/
namespace FirewallRollout.Storage.Database

/-- The row of a task. -/
def row? (db : Database) (id : String) : Option Row := db.rows.find? (·.taskId == .text id)

/-- The identifiers that there are rows for. -/
def taskIds (db : Database) : List String := db.rows.filterMap (·.taskId.text?)

theorem write_eq_ok_iff {db db' : Database} {row : Row} :
    db.write row = .ok db' ↔ ∃ rows, db.table = some rows ∧ db.writable = true ∧
      db' = { db with table := some (rows.filter (·.taskId != row.taskId) ++ [row]) } := by
  cases htable : db.table <;> cases hw : db.writable <;>
    simp [write, edit, htable, hw, Except.map, eq_comm]

/-- A write changes the row of its task alone. -/
theorem row?_write {db db' : Database} {row : Row} {id : String} (hkey : row.taskId = .text id)
    (h : db.write row = .ok db') (id' : String) :
    db'.row? id' = if id' = id then some row else db.row? id' := by
  obtain ⟨rows, htable, -, rfl⟩ := write_eq_ok_iff.mp h
  simp only [row?, Database.rows, htable, Option.getD_some, List.find?_append,
    Keyed.find?_filter_ne Row.taskId, hkey, Cell.text.injEq]
  by_cases hid : id' = id
  · simp [hid, hkey]
  · simp [hid, hkey, Ne.symm hid]

theorem nodup_write {db db' : Database} {row : Row} {id : String} (hkey : row.taskId = .text id)
    (h : db.taskIds.Nodup) (hwrite : db.write row = .ok db') : db'.taskIds.Nodup := by
  obtain ⟨rows, htable, -, rfl⟩ := write_eq_ok_iff.mp hwrite
  have hids : (rows.filterMap (·.taskId.text?)).Nodup := by
    simpa [taskIds, Database.rows, htable] using h
  have hlast : [row].filterMap (·.taskId.text?) = [id] := by simp [hkey, Cell.text?]
  simp only [taskIds, Database.rows, Option.getD_some, List.filterMap_append, hlast]
  refine List.nodup_append.mpr ⟨hids.sublist (List.filter_sublist.filterMap _), by simp, ?_⟩
  rintro id₁ hid₁ id₂ hid₂ rfl
  obtain ⟨kept, hkept, htext⟩ := List.mem_filterMap.mp hid₁
  have hne := (List.mem_filter.mp hkept).2
  rw [Cell.text?_eq_some_iff.mp htext, hkey, List.mem_singleton.mp hid₂] at hne
  simp at hne

theorem foldlM_write (db : Database) (written : List Row) :
    written.foldlM write db = (db.writeAll written).1.map fun _ => (db.writeAll written).2 := by
  induction written generalizing db with
  | nil => rfl
  | cons row written ih =>
    cases hwrite : db.write row with
    | error e => simp [writeAll, hwrite, bind, Except.bind, Except.map]
    | ok next => simpa [writeAll, hwrite, bind, Except.bind] using ih next

/-- Where the table takes writes, each row is put last in the place of the old one. -/
theorem writeAll_of_writable (db : Database) {rows : List Row} (htable : db.table = some rows)
    (hwrites : db.writable = true) (written : List Row) :
    db.writeAll written =
      (.ok (), { db with table := some (written.foldl (Keyed.putLast Row.taskId) rows) }) := by
  induction written generalizing db rows with
  | nil => simp [writeAll, ← htable]
  | cons row written ih =>
    have hwrite : db.write row =
        .ok { db with table := some (Keyed.putLast Row.taskId rows row) } := by
      simp [write, edit, htable, hwrites, Except.map, Keyed.putLast]
    simp only [writeAll, hwrite, List.foldl_cons]
    exact ih _ rfl hwrites

theorem writeAll_of_closed (db : Database) (hclosed : db.writable = false) {written : List Row}
    (hsome : written ≠ []) : ∃ e, db.writeAll written = (.error e, db) := by
  cases written with
  | nil => exact absurd rfl hsome
  | cons row written =>
    cases htable : db.table <;> simp [writeAll, write, edit, htable, hclosed, Except.map]

section Several
variable {α : Type} {rowOf : α → Row} {db db' : Database} {written : List α}

theorem nodup_foldlM_write {idOf : α → String} (hkey : ∀ x, (rowOf x).taskId = .text (idOf x))
    (hids : db.taskIds.Nodup) (h : written.foldlM (fun db x => db.write (rowOf x)) db = .ok db') :
    db'.taskIds.Nodup := by
  induction written generalizing db with
  | nil =>
    obtain rfl := Except.ok.inj h
    exact hids
  | cons x written ih =>
    rw [List.foldlM_cons] at h
    obtain ⟨next, hnext, h⟩ := bind_ok h
    exact ih (nodup_write (hkey x) hids hnext) h

theorem isSome_table_foldlM_write (htable : db.table.isSome = true)
    (h : written.foldlM (fun db x => db.write (rowOf x)) db = .ok db') :
    db'.table.isSome = true := by
  induction written generalizing db with
  | nil =>
    obtain rfl := Except.ok.inj h
    exact htable
  | cons x written ih =>
    rw [List.foldlM_cons] at h
    obtain ⟨next, hnext, h⟩ := bind_ok h
    obtain ⟨_, -, -, rfl⟩ := write_eq_ok_iff.mp hnext
    exact ih rfl h

/-- Writes one after the other change the rows of their own tasks alone. -/
theorem row?_foldlM_write (idOf : α → String) (hkey : ∀ x, (rowOf x).taskId = .text (idOf x))
    (h : written.foldlM (fun db x => db.write (rowOf x)) db = .ok db')
    (hdistinct : (written.map idOf).Nodup) (id : String) :
    db'.row? id = ((written.find? (idOf · == id)).map rowOf).or (db.row? id) := by
  induction written generalizing db with
  | nil =>
    obtain rfl := Except.ok.inj h
    rfl
  | cons x written ih =>
    rw [List.foldlM_cons] at h
    obtain ⟨next, hnext, h⟩ := bind_ok h
    obtain ⟨hnew, hrest⟩ := List.nodup_cons.mp hdistinct
    rw [ih h hrest, row?_write (hkey x) hnext, List.find?_cons]
    by_cases hid : id = idOf x
    · have hnone : written.find? (idOf · == id) = none := by
        rw [List.find?_eq_none]
        intro y hy hyid
        exact hnew (List.mem_map.mpr ⟨y, hy, (beq_iff_eq.mp hyid).trans hid⟩)
      simp [hid, hid ▸ hnone]
    · simp [hid, beq_false_of_ne (Ne.symm hid)]

end Several

end FirewallRollout.Storage.Database
