import FirewallRollout.Proofs.Registry.Opening

/-!
# Counters of stored tasks

Opening takes the counters of a row as they are, and it ends a task by counting the rules that its
row leaves over. So the counters of the tasks that it loads can be relied on for exactly those tables
whose own counters can.
-/
namespace FirewallRollout

namespace Task

/-- No counter passes the number of the task's rules. -/
def Within (t : Task) : Prop := t.processed ≤ t.total ∧ t.failed ≤ t.total

/-- The rules that are left over are counted without going below zero. -/
def LeavesRest (t : Task) : Prop :=
  (t.total - t.processed).toNat + t.processed.toNat = t.total.toNat

theorem leavesRest_iff {t : Task} : t.LeavesRest ↔ t.processed ≤ t.total := by
  rw [LeavesRest, UInt32.le_iff_toNat_le]
  constructor
  · intro h
    omega
  · intro h
    have hsub : (t.total - t.processed).toNat = t.total.toNat - t.processed.toNat :=
      UInt32.toNat_sub_of_le _ _ (UInt32.le_iff_toNat_le.mpr h)
    omega

theorem abandon_failed_le (t : Task) (message : String) (now : Int64) :
    (t.abandon message now).failed ≤ t.total := Std.min_le_right

end Task

namespace Registry
open Storage (Database Row)
variable {db : Database} {now : Int64}

/-- The tasks that opening comes to: reading ends at the first row that records none. -/
def metTasks : List Row → List Task
  | [] => []
  | row :: rows =>
    match row.read with
    | .ok (_, t) => t :: metTasks rows
    | .error _ => []

/-- Where every row records a task, opening comes to all of them. -/
theorem mem_metTasks {rows : List Row} (hrecords : ∀ row ∈ rows, ∃ n t, row.Records n t) {t : Task} :
    t ∈ metTasks rows ↔ ∃ row ∈ rows, ∃ n, row.Records n t := by
  induction rows with
  | nil => simp [metTasks]
  | cons row rows ih =>
    obtain ⟨m, u, hu⟩ := hrecords row (.head _)
    have hfirst : (∃ n, row.Records n t) ↔ t = u := by
      constructor
      · rintro ⟨n, ht⟩
        exact (ht.unique hu).2
      · rintro rfl
        exact ⟨m, hu⟩
    rw [metTasks, hu.read, List.mem_cons, ih fun row hrow => hrecords row (.tail _ hrow),
      List.exists_mem_cons_iff, hfirst]

/-- The tasks of a registry that was opened are those of the rows, as a new start leaves them. -/
theorem mem_tasks_openDatabase {r : Registry} {ended : Nat}
    (h : openDatabase db now = .ok (r, ended)) {u : Task} :
    u ∈ r.tasks ↔ ∃ row ∈ db.rows, ∃ n t, row.Records n t ∧ u = (restore now t).1 := by
  rw [openDatabase_eq] at h
  obtain ⟨opened, hopened, h⟩ := bind_ok h
  obtain ⟨_, -, h⟩ := bind_ok h
  obtain ⟨rfl, -⟩ := Prod.mk.inj (Except.ok.inj h)
  have htasks : Registry.tasks { entries := opened.map fun x => { seq := x.1, task := x.2.1 } } =
      opened.map (·.2.1) := by
    simp [tasks, Function.comp_def]
  change u ∈ Registry.tasks { entries := _ } ↔ _
  rw [htasks, List.mem_map]
  constructor
  · rintro ⟨x, hx, rfl⟩
    obtain ⟨row, hrow, hread⟩ := mem_of_mapM_ok hopened hx
    obtain ⟨n, t, hrecords, rfl⟩ := records_of_readRow hread
    exact ⟨row, hrow, n, t, hrecords, rfl⟩
  · rintro ⟨row, hrow, n, t, hrecords, rfl⟩
    obtain ⟨x, hx, hread⟩ := exists_match (forall₂_of_mapM_ok hopened) hrow
    obtain rfl := Except.ok.inj (hread.symm.trans (readRow_of_records hrecords))
    exact ⟨_, hx, rfl⟩

/-- Ending a task that has not ended mends its count of failed rules and keeps its progress. -/
theorem within_restore_iff {t : Task} :
    (restore now t).1.Within ↔
      t.processed ≤ t.total ∧ (t.isTerminal = true → t.failed ≤ t.total) := by
  cases hended : t.isTerminal with
  | true => simp [restore_of_isTerminal hended, Task.Within]
  | false =>
    rw [restore_of_active hended]
    have hfailed := t.abandon_failed_le interruptedMessage now
    exact ⟨fun h => ⟨h.1, by simp⟩, fun h => ⟨h.1, hfailed⟩⟩

/-- There is something to write exactly when a task had not ended. -/
theorem filter_ended_eq_nil_iff {opened : List (UInt64 × Task × Bool)}
    (h : db.rows.mapM (readRow now) = .ok opened) :
    opened.filter (·.2.2) = [] ↔
      ∀ row ∈ db.rows, ∀ {n t}, row.Records n t → t.isTerminal = true := by
  rw [List.filter_eq_nil_iff]
  constructor
  · intro hnone row hrow n t hrecords
    obtain ⟨x, hx, hread⟩ := exists_match (forall₂_of_mapM_ok h) hrow
    obtain rfl := Except.ok.inj (hread.symm.trans (readRow_of_records hrecords))
    cases hended : t.isTerminal with
    | true => rfl
    | false => exact absurd (by simp [restore_of_active hended]) (hnone _ hx)
  · intro hended x hx
    obtain ⟨row, hrow, hread⟩ := mem_of_mapM_ok h hx
    obtain ⟨n, t, hrecords, rfl⟩ := records_of_readRow hread
    simp [restore_of_isTerminal (hended row hrow hrecords)]

/-- Whether a database is opened depends on no counter: each row has to record a task, and writes
have to be possible if there is anything to write. -/
theorem exists_openDatabase_iff :
    (∃ r ended, openDatabase db now = .ok (r, ended)) ↔
      (∀ row ∈ db.rows, ∃ n t, row.Records n t) ∧
        (db.writable = true ∨ ∀ row ∈ db.rows, ∀ {n t}, row.Records n t → t.isTerminal = true) := by
  unfold openDatabase
  by_cases hrecords : ∀ row ∈ db.rows, ∃ n t, row.Records n t
  · obtain ⟨opened, hopened⟩ : ∃ opened, db.rows.mapM (readRow now) = .ok opened :=
      exists_mapM_readRow_iff.mpr hrecords
    have hread : db.prepare.rows.mapM (readRow now) = .ok opened := hopened
    simp only [opening, hread, ← filter_ended_eq_nil_iff hopened]
    cases hwrites : db.writable with
    | true =>
      have hwrite := db.prepare.writeAll_of_writable rfl hwrites
        ((opened.filter (·.2.2)).map fun x => Row.ofTask x.1 x.2.1)
      simpa [hwrite, Except.map] using hrecords
    | false =>
      by_cases hnone : opened.filter (·.2.2) = []
      · simpa [hnone, Database.writeAll, Except.map] using hrecords
      · have hsome : (opened.filter (·.2.2)).map (fun x => Row.ofTask x.1 x.2.1) ≠ [] := by
          simpa using hnone
        obtain ⟨e, he⟩ := db.prepare.writeAll_of_closed hwrites hsome
        simp [he, Except.map, hnone]
  · have hbad : ∃ row ∈ db.rows, ∀ n t, ¬ row.Records n t := by
      simpa using hrecords
    obtain ⟨e, he⟩ := opening_of_unrecorded hbad now
    simp [he, hrecords]

/-- The counters that come of opening a database can be relied on. -/
structure Reliable (db : Database) (now : Int64) : Prop where
  rest : ∀ t ∈ metTasks db.rows, t.isTerminal = false → t.LeavesRest
  loaded : ∀ {r ended}, openDatabase db now = .ok (r, ended) → ∀ t ∈ r.tasks, t.Within

/-- Opening never asks for the counters of a row. So what it counts and what it loads can be relied
on exactly when no task that it ends has more rules applied than it has, and, if it succeeds, no
counter of an ended task passes the number of its rules. -/
theorem reliable_iff (db : Database) (now : Int64) :
    ((∃ r ended, openDatabase db now = .ok (r, ended)) ↔
      (∀ row ∈ db.rows, ∃ n t, row.Records n t) ∧
        (db.writable = true ∨ ∀ row ∈ db.rows, ∀ {n t}, row.Records n t → t.isTerminal = true)) ∧
    (Reliable db now ↔
      (∀ t ∈ metTasks db.rows, t.isTerminal = false → t.processed ≤ t.total) ∧
        ((∃ r ended, openDatabase db now = .ok (r, ended)) →
          ∀ row ∈ db.rows, ∀ {n t}, row.Records n t → t.isTerminal = true → t.Within)) := by
  refine ⟨exists_openDatabase_iff, fun h => ⟨?_, ?_⟩, fun h => ⟨?_, ?_⟩⟩
  · exact fun t ht hactive => Task.leavesRest_iff.mp (h.rest t ht hactive)
  · rintro ⟨r, ended, hopen⟩ row hrow n t hrecords hended
    have hloaded : (restore now t).1 ∈ r.tasks :=
      (mem_tasks_openDatabase hopen).mpr ⟨row, hrow, n, t, hrecords, rfl⟩
    have hwithin := h.loaded hopen _ hloaded
    rwa [restore_of_isTerminal hended] at hwithin
  · exact fun t ht hactive => Task.leavesRest_iff.mpr (h.1 t ht hactive)
  · intro r ended hopen u hu
    obtain ⟨row, hrow, n, t, hrecords, rfl⟩ := (mem_tasks_openDatabase hopen).mp hu
    rw [within_restore_iff]
    cases hended : t.isTerminal with
    | true =>
      have hwithin := h.2 ⟨r, ended, hopen⟩ row hrow hrecords hended
      exact ⟨hwithin.1, fun _ => hwithin.2⟩
    | false =>
      -- a registry was opened, so every row was come to
      have hall := (exists_openDatabase_iff.mp ⟨r, ended, hopen⟩).1
      exact ⟨h.1 t ((mem_metTasks hall).mpr ⟨row, hrow, n, hrecords⟩) hended, by simp⟩

section Example

def cancelledBefore : Task :=
  { Task.create "a" "S1" 3 false 10 with
    status := .failed, failed := 3, errorMessage := some Task.cancelledMessage,
    completedAt := some 11 }

/-- A row of three rules of which nine were applied. -/
def overrun (t : Task) : Database := { table := some [.ofTask 0 { t with processed := 9 }] }

/-- An ended task is loaded with nine of its three rules applied, and a running one is ended by a
subtraction that goes below zero. -/
theorem reliable_iff_overrun :
    (∃ r ended, openDatabase (overrun cancelledBefore) 30 = .ok (r, ended) ∧
      { cancelledBefore with processed := 9 } ∈ r.tasks) ∧
    ¬ Reliable (overrun cancelledBefore) 30 ∧ ¬ Reliable (overrun runningTask) 30 := by
  obtain ⟨hopens, hreliable⟩ := reliable_iff (overrun cancelledBefore) 30
  have hrecords := Row.records_ofTask 0 { cancelledBefore with processed := 9 }
  obtain ⟨r, ended, hopen⟩ := hopens.mpr ⟨fun row hrow => by
    obtain rfl := List.mem_singleton.mp hrow
    exact ⟨_, _, hrecords⟩, .inl rfl⟩
  refine ⟨⟨r, ended, hopen, ?_⟩, fun h => ?_, fun h => ?_⟩
  · exact (mem_tasks_openDatabase hopen).mpr ⟨_, .head _, _, _, hrecords, rfl⟩
  · have hwithin := (hreliable.mp h).2 ⟨r, ended, hopen⟩ _ (.head _) hrecords rfl
    exact absurd hwithin.1 (by decide)
  · have hmet : { runningTask with processed := 9 } ∈ metTasks (overrun runningTask).rows := by
      decide +kernel
    have hle := ((reliable_iff (overrun runningTask) 30).2.mp h).1 _ hmet rfl
    exact absurd hle (by decide)

end Example

end Registry
end FirewallRollout
