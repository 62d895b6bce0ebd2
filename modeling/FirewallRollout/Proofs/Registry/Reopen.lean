import FirewallRollout.Proofs.Storage.Database
import FirewallRollout.Proofs.Task.Life
import FirewallRollout.Registry

/-!
# Opening a stored registry

A database that holds the rows of tasks, each under an identifier of its own, can always be opened.
Every task is there again, those that had not ended are ended now, and their rows come last.
-/
namespace FirewallRollout.Registry
open Storage (Database Row placeOf keptSeq keptSeq_keptSeq)

/-- A new start changes only what it ends. -/
theorem restore_of_isTerminal {t : Task} (h : t.isTerminal = true) (now : Int64) :
    restore now t = (t, false) := by
  simp [restore, h]

theorem restore_of_active {t : Task} (h : t.isTerminal = false) (now : Int64) :
    restore now t = (t.abandon interruptedMessage now, true) := by
  simp [restore, h]

theorem restore_sameRebuild (now : Int64) (t : Task) : t.SameRebuild (restore now t).1 := by
  unfold restore
  split <;> exact .refl t

theorem restore_processed (now : Int64) (t : Task) :
    (restore now t).1.processed = t.processed := by
  unfold restore
  split <;> rfl

theorem restore_isTerminal (now : Int64) (t : Task) : (restore now t).1.isTerminal = true := by
  unfold restore
  split
  · assumption
  · rfl

namespace Entry

def isActive (e : Entry) : Bool := !e.task.isTerminal

def row (e : Entry) : Row := .ofTask e.seq e.task

/-- The entry as its row gives it back. -/
def reread (e : Entry) : Entry := { e with seq := keptSeq e.seq }

/-- The entry that a new start makes of a row. -/
def revive (now : Int64) (e : Entry) : Entry :=
  { seq := keptSeq e.seq, task := (restore now e.task).1 }

@[simp] theorem reread_task (e : Entry) : e.reread.task = e.task := rfl

@[simp] theorem revive_id (now : Int64) (e : Entry) : (e.revive now).task.id = e.task.id :=
  (restore_sameRebuild now e.task).1

@[simp] theorem revive_reread (now : Int64) (e : Entry) : e.reread.revive now = e.revive now := by
  simp [revive, reread]

@[simp] theorem reread_revive (now : Int64) (e : Entry) : (e.revive now).reread = e.revive now := by
  simp [revive, reread]

theorem revive_of_isTerminal {e : Entry} (h : e.task.isTerminal = true) (now : Int64) :
    e.revive now = e.reread := by
  simp [revive, reread, restore_of_isTerminal h]

end Entry

/-- The database with the rows of entries. -/
def tableOf (kept : List Entry) : Database := { table := some (kept.map Entry.row) }

/-- The entries whose rows are there after one more was written. -/
def rewrite (kept : List Entry) (e : Entry) : List Entry :=
  kept.filter (·.task.id != e.task.id) ++ [e]

theorem write_tableOf (kept : List Entry) (e : Entry) :
    (tableOf kept).write e.row = .ok (tableOf (rewrite kept e)) := by
  have hrow : (fun x : Entry => x.row.taskId != e.row.taskId) = fun x => x.task.id != e.task.id := by
    funext x
    simp [Entry.row, Row.ofTask, bne]
  simp [tableOf, rewrite, Database.write, Database.edit, Except.map, List.filter_map,
    Function.comp_def, hrow]

theorem foldlM_write (kept written : List Entry) :
    written.foldlM (fun db e => db.write e.row) (tableOf kept) =
      .ok (tableOf (written.foldl rewrite kept)) := by
  induction written generalizing kept with
  | nil => rfl
  | cons e written ih =>
    rw [List.foldlM_cons, write_tableOf]
    exact ih (rewrite kept e)

/-- The entries whose rows are there after a new start: those of ended tasks have not moved. -/
def settled (now : Int64) (kept : List Entry) : List Entry :=
  kept.filter (fun e => !e.isActive) ++ (kept.filter Entry.isActive).map (Entry.revive now)

theorem foldl_rewrite_revive {kept : List Entry} (h : (kept.map (·.task.id)).Nodup) (now : Int64) :
    ((kept.filter Entry.isActive).map (Entry.revive now)).foldl rewrite kept = settled now kept :=
  Keyed.foldl_putLast_filter (fun e : Entry => e.task.id) h Entry.isActive (Entry.revive_id now)

section Settled
variable (now : Int64) (kept : List Entry)

theorem settled_perm : ((settled now kept).map Entry.reread).Perm (kept.map (Entry.revive now)) := by
  have hended : (kept.filter fun e => !e.isActive).map Entry.reread =
      (kept.filter fun e => !e.isActive).map (Entry.revive now) := by
    apply List.map_congr_left
    intro e he
    have hterminal : e.task.isTerminal = true := by
      simpa [Entry.isActive] using (List.mem_filter.mp he).2
    exact (Entry.revive_of_isTerminal hterminal now).symm
  have hmoved : ((kept.filter Entry.isActive).map (Entry.revive now)).map Entry.reread =
      (kept.filter Entry.isActive).map (Entry.revive now) := by
    simp [Function.comp_def]
  rw [settled, List.map_append, hended, hmoved, ← List.map_append]
  exact (List.perm_append_comm.trans (List.filter_append_perm _ _)).map _

theorem settled_ids_perm : ((settled now kept).map (·.task.id)).Perm (kept.map (·.task.id)) := by
  simpa [Function.comp_def] using (settled_perm now kept).map (·.task.id)

theorem isActive_of_mem_settled {e : Entry} (h : e ∈ settled now kept) : e.isActive = false := by
  rcases List.mem_append.mp h with he | he
  · simpa using (List.mem_filter.mp he).2
  · obtain ⟨d, -, rfl⟩ := List.mem_map.mp he
    simp [Entry.isActive, Entry.revive, restore_isTerminal]

/-- Nothing moves at the next start. -/
theorem settled_settled (later : Int64) : settled later (settled now kept) = settled now kept := by
  have hactive : (settled now kept).filter Entry.isActive = [] := by
    rw [List.filter_eq_nil_iff]
    intro e he
    simp [isActive_of_mem_settled now kept he]
  have hended : (settled now kept).filter (fun e => !e.isActive) = settled now kept := by
    rw [List.filter_eq_self]
    intro e he
    simp [isActive_of_mem_settled now kept he]
  rw [settled, hactive, hended, List.map_nil, List.append_nil]

theorem map_revive_settled (later : Int64) :
    (settled now kept).map (Entry.revive later) = (settled now kept).map Entry.reread := by
  apply List.map_congr_left
  intro e he
  have hactive := isActive_of_mem_settled now kept he
  exact Entry.revive_of_isTerminal (by simpa [Entry.isActive] using hactive) later

end Settled

theorem readRow_of_records {now : Int64} {row : Row} {n : Int64} {t : Task} (h : row.Records n t) :
    readRow now row = .ok (placeOf n, restore now t) := by
  simp [readRow, h.read]

theorem records_of_readRow {now : Int64} {row : Row} {x : UInt64 × Task × Bool}
    (h : readRow now row = .ok x) :
    ∃ n t, row.Records n t ∧ x = (placeOf n, restore now t) := by
  cases hread : row.read with
  | error bad => simp [readRow, hread] at h
  | ok stored =>
    obtain ⟨n, hrecords, -⟩ := Row.records_of_read hread
    rw [readRow_of_records hrecords] at h
    exact ⟨n, stored.2, hrecords, (Except.ok.inj h).symm⟩

theorem openDatabase_eq (db : Database) (now : Int64) :
    openDatabase db now = (do
      let opened ← db.prepare.rows.mapM (readRow now)
      let written ← (opened.filter (·.2.2)).foldlM
        (fun db x => db.write (.ofTask x.1 x.2.1)) db.prepare
      let entries := opened.map fun x => ({ seq := x.1, task := x.2.1 } : Entry)
      .ok ({ entries, nextSeq := seqAfter entries, database := some written },
        (opened.filter (·.2.2)).length)) := by
  rw [openDatabase, opening]
  cases db.prepare.rows.mapM (readRow now) with
  | error e => rfl
  | ok opened =>
    have hwrite := db.prepare.foldlM_write
      ((opened.filter (·.2.2)).map fun x => Row.ofTask x.1 x.2.1)
    rw [List.foldlM_map] at hwrite
    simp only [bind, Except.bind, hwrite]
    cases (db.prepare.writeAll ((opened.filter (·.2.2)).map fun x => .ofTask x.1 x.2.1)).1 <;> rfl

/-- What a new start makes of the row of an entry. -/
def Entry.opened (now : Int64) (e : Entry) : UInt64 × Task × Bool :=
  (keptSeq e.seq, restore now e.task)

theorem readRow_row (now : Int64) (e : Entry) : readRow now e.row = .ok (e.opened now) :=
  readRow_of_records (Row.records_ofTask e.seq e.task)

theorem mapM_readRow (kept : List Entry) (now : Int64) :
    (tableOf kept).prepare.rows.mapM (readRow now) = .ok (kept.map (Entry.opened now)) :=
  mapM_map_ok (readRow_row now) kept

theorem filter_opened (kept : List Entry) (now : Int64) :
    (kept.map (Entry.opened now)).filter (·.2.2) =
      (kept.filter Entry.isActive).map (Entry.opened now) := by
  rw [List.filter_map]
  congr 2
  funext e
  cases ht : e.task.isTerminal <;>
    simp [Entry.opened, Entry.isActive, restore_of_isTerminal, restore_of_active, ht]

/-- The registry that a new start makes of the rows of entries. -/
def reopened (now : Int64) (kept : List Entry) : Registry :=
  { entries := kept.map (Entry.revive now)
    nextSeq := seqAfter (kept.map (Entry.revive now))
    database := some (tableOf (settled now kept)) }

theorem openDatabase_tableOf {kept : List Entry} (h : (kept.map (·.task.id)).Nodup) (now : Int64) :
    openDatabase (tableOf kept) now = .ok (reopened now kept, kept.countP Entry.isActive) := by
  have hentry : (fun e : Entry => ({ seq := (e.opened now).1, task := (e.opened now).2.1 } : Entry)) =
      Entry.revive now := rfl
  have hwrite : ((kept.filter Entry.isActive).map (Entry.opened now)).foldlM
      (fun db x => db.write (.ofTask x.1 x.2.1)) (tableOf kept).prepare =
      .ok (tableOf (settled now kept)) := by
    rw [← foldl_rewrite_revive h, ← foldlM_write, List.foldlM_map, List.foldlM_map]
    rfl
  rw [openDatabase_eq, mapM_readRow, List.countP_eq_length_filter]
  simp only [bind, Except.bind, filter_opened, hwrite, List.map_map, Function.comp_def, hentry,
    List.length_map, reopened]

end FirewallRollout.Registry
