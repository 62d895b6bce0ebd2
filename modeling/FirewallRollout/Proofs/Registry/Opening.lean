import FirewallRollout.Proofs.Registry.LastWrite
import FirewallRollout.Proofs.Registry.Restart

/-!
# Opening as a whole

A database is opened with all of its rows or not at all. Every row is read before the first one is
written, so that a row that records no task leaves the others as they were, also those of tasks that
would have been ended.
-/
namespace FirewallRollout.Registry
open Storage (Database Row placeOf seqRoom)
variable {now : Int64}

/-! ## What is made of a row -/

/-- Reading fails at a row that records no task, and nowhere else. -/
theorem exists_mapM_readRow_iff {rows : List Row} :
    (∃ opened, rows.mapM (readRow now) = .ok opened) ↔ ∀ row ∈ rows, ∃ n t, row.Records n t := by
  constructor
  · rintro ⟨opened, hopened⟩ row hrow
    obtain ⟨x, -, hx⟩ := exists_match (forall₂_of_mapM_ok hopened) hrow
    obtain ⟨n, t, hrecords, -⟩ := records_of_readRow hx
    exact ⟨n, t, hrecords⟩
  · intro hrecords
    cases hread : rows.mapM (readRow now) with
    | ok opened => exact ⟨opened, rfl⟩
    | error e =>
      obtain ⟨row, hrow, herror⟩ := mem_of_mapM_error hread
      obtain ⟨n, t, hrecords⟩ := hrecords row hrow
      rw [readRow_of_records hrecords] at herror
      cases herror

/-- Whether a row is of a task that opening has to end. -/
def isInterrupted (now : Int64) (row : Row) : Bool :=
  match readRow now row with
  | .ok (_, _, ended) => ended
  | .error _ => false

/-- The row that is left of a row. -/
def rowLeft (now : Int64) (row : Row) : Row :=
  match readRow now row with
  | .ok (seq, t, true) => .ofTask seq t
  | _ => row

theorem rowLeft_of_readRow {row : Row} {x : UInt64 × Task × Bool} (h : readRow now row = .ok x) :
    rowLeft now row = if x.2.2 then .ofTask x.1 x.2.1 else row := by
  obtain ⟨seq, t, ended⟩ := x
  cases ended <;> simp [rowLeft, h]

theorem rowLeft_of_not_interrupted {row : Row} (h : isInterrupted now row = false) :
    rowLeft now row = row := by
  cases hread : readRow now row with
  | error e => simp [rowLeft, hread]
  | ok x =>
    have hended : x.2.2 = false := by simpa [isInterrupted, hread] using h
    simp [rowLeft_of_readRow hread, hended]

theorem taskId_rowLeft (now : Int64) (row : Row) : (rowLeft now row).taskId = row.taskId := by
  cases hread : readRow now row with
  | error e => simp [rowLeft, hread]
  | ok x =>
    rw [rowLeft_of_readRow hread, (readRow_ok hread).1]
    split
    · rfl
    · exact (readRow_ok hread).1

/-- What is written are the rows that are left of those that had to be ended. -/
theorem written_eq {rows : List Row} {opened : List (UInt64 × Task × Bool)}
    (h : rows.mapM (readRow now) = .ok opened) :
    ((opened.filter (·.2.2)).map fun x => Row.ofTask x.1 x.2.1) =
      (rows.filter (isInterrupted now)).map (rowLeft now) := by
  have hall := forall₂_of_mapM_ok h
  clear h
  induction hall with
  | nil => rfl
  | @cons row x _ _ hrow _ ih =>
    have hinterrupted : isInterrupted now row = x.2.2 := by simp [isInterrupted, hrow]
    cases hended : x.2.2 <;> simp [hinterrupted, hended, ih, rowLeft_of_readRow hrow]

/-! ## What is opened -/

/-- A task that had not ended, and how opening has ended it. -/
structure Interrupts (now : Int64) (t u : Task) : Prop where
  active : t.isTerminal = false
  rebuild : t.SameRebuild u
  status : u.status = .failed
  message : u.errorMessage = some interruptedMessage
  completed : u.completedAt = some now
  processed : u.processed = t.processed
  rest : u.failed.toNat + t.processed.toNat = t.total.toNat

/-- What opening makes of a row: an entry, and the row that is left. -/
inductive Opens (now : Int64) (row : Row) : Entry × Row → Prop where
  | ended {n : Int64} {t : Task} (recorded : row.Records n t) (ended : t.isTerminal = true) :
      Opens now row ({ seq := placeOf n, task := t }, row)
  | interrupted {n : Int64} {t u : Task} (recorded : row.Records n t) (ended : Interrupts now t u) :
      Opens now row ({ seq := placeOf n, task := u }, .ofTask (placeOf n) u)

theorem interrupts_abandon {t : Task} (hactive : t.isTerminal = false)
    (hcounts : t.processed ≤ t.total) (now : Int64) :
    Interrupts now t (t.abandon interruptedMessage now) where
  active := hactive
  rebuild := .refl t
  status := rfl
  message := rfl
  completed := rfl
  processed := rfl
  rest := Task.toNat_failed_abandon hcounts interruptedMessage now

theorem opens_of_readRow {row : Row} {x : UInt64 × Task × Bool} (h : readRow now row = .ok x)
    (hcounts : ∀ {n t}, row.Records n t → t.isTerminal = false → t.processed ≤ t.total) :
    Opens now row ({ seq := x.1, task := x.2.1 }, rowLeft now row) := by
  rw [rowLeft_of_readRow h]
  obtain ⟨n, t, hrecords, rfl⟩ := records_of_readRow h
  cases hended : t.isTerminal with
  | true =>
    rw [restore_of_isTerminal hended]
    exact .ended hrecords hended
  | false =>
    rw [restore_of_active hended]
    exact .interrupted hrecords (interrupts_abandon hended (hcounts hrecords hended) now)

theorem forall₂_opens {rows : List Row} {opened : List (UInt64 × Task × Bool)}
    (h : rows.mapM (readRow now) = .ok opened)
    (hcounts : ∀ row ∈ rows, ∀ {n t}, row.Records n t → t.isTerminal = false →
      t.processed ≤ t.total) :
    ∃ pairs, List.Forall₂ (Opens now) rows pairs ∧
      pairs.map Prod.fst = (opened.map fun x => { seq := x.1, task := x.2.1 }) ∧
      pairs.map Prod.snd = rows.map (rowLeft now) := by
  have hall := forall₂_of_mapM_ok h
  clear h
  induction hall with
  | nil => exact ⟨[], .nil, rfl, rfl⟩
  | @cons row x rows opened hrow _ ih =>
    obtain ⟨pairs, hopens, hentries, hrows⟩ := ih fun row hmem => hcounts row (.tail _ hmem)
    refine ⟨({ seq := x.1, task := x.2.1 }, rowLeft now row) :: pairs, ?_, ?_, ?_⟩
    · exact .cons (opens_of_readRow hrow (hcounts row (.head _))) hopens
    · simp [hentries]
    · simp [hrows]

/-- A registry that was opened with all rows of a database, and the database that is left. -/
structure OpenedFrom (now : Int64) (db : Database) (r : Registry) (left : Database) : Prop where
  /-- There is one task for each row, and one row is left of each. -/
  opens : ∃ opened, List.Forall₂ (Opens now) db.rows opened ∧ r.entries = opened.map Prod.fst ∧
    left.rows.Perm (opened.map Prod.snd)
  ids : (r.tasks.map Task.id).Nodup
  database : r.database = some left
  next : ∀ e ∈ r.entries, e.seq < r.nextSeq

theorem openedFrom_opening {db : Database} (hkeys : db.taskIds.Nodup) (hwrites : db.writable = true)
    (hcounts : ∀ row ∈ db.rows, ∀ {n t}, row.Records n t → t.isTerminal = false →
      t.processed ≤ t.total)
    (hrecords : ∀ row ∈ db.rows, ∃ n t, row.Records n t) (now : Int64) :
    ∃ r ended, openDatabase db now = .ok (r, ended) ∧ OpenedFrom now db r (opening db now).2 := by
  obtain ⟨opened, hopened⟩ : ∃ opened, db.rows.mapM (readRow now) = .ok opened :=
    exists_mapM_readRow_iff.mpr hrecords
  obtain ⟨pairs, hopens, hentries, hrows⟩ := forall₂_opens hopened hcounts
  have hids : (opened.map (·.2.1.id)).Nodup := by
    rw [ids_of_mapM hopened]
    exact hkeys
  have hcells : (db.rows.map Row.taskId).Nodup := by
    have hinjective : Function.Injective Storage.Cell.text := fun _ _ => Storage.Cell.text.inj
    rw [taskIds_of_mapM hopened]
    simpa [Function.comp_def] using hids.map hinjective
  have hwrite := db.prepare.writeAll_of_writable rfl hwrites
    ((opened.filter (·.2.2)).map fun x => Row.ofTask x.1 x.2.1)
  rw [written_eq hopened] at hwrite
  have hperm := Keyed.perm_foldl_putLast Row.taskId hcells (taskId_rowLeft now)
    fun _ => rowLeft_of_not_interrupted
  have hread : db.prepare.rows.mapM (readRow now) = .ok opened := hopened
  simp only [openDatabase, opening, hread, written_eq hopened, hwrite, Except.map]
  refine ⟨_, _, rfl, ⟨pairs, hopens, hentries.symm, hrows ▸ hperm⟩, ?_, rfl, ?_⟩
  · simpa [tasks, Function.comp_def] using hids
  · -- no stored number reaches the end of the column, so the one after it has room
    have hbelow : ∀ e ∈ opened.map (fun x => ({ seq := x.1, task := x.2.1 } : Entry)),
        e.seq < .ofNat seqRoom := by
      intro e he
      obtain ⟨x, hx, rfl⟩ := List.mem_map.mp he
      obtain ⟨row, -, hrow⟩ := mem_of_mapM_ok hopened hx
      exact UInt64.lt_iff_toNat_lt.mpr (readRow_ok hrow).2.1
    exact fun e he => lt_seqAfter hbelow he

theorem opening_of_unrecorded {db : Database} (h : ∃ row ∈ db.rows, ∀ n t, ¬ row.Records n t)
    (now : Int64) : ∃ e, opening db now = (.error e, db.prepare) := by
  cases hread : db.prepare.rows.mapM (readRow now) with
  | error e => exact ⟨e, by simp [opening, hread]⟩
  | ok opened =>
    obtain ⟨row, hrow, hnone⟩ := h
    obtain ⟨n, t, hrecords⟩ := exists_mapM_readRow_iff.mp ⟨opened, hread⟩ row hrow
    exact absurd hrecords (hnone n t)

/-- Whatever the rows of a database are, each under an identifier of its own: if one of them records
no task, opening fails and leaves all of them as they were, and otherwise it makes an entry of each
and ends what had not ended. No task that has to be ended counts more rules as applied than it has,
and writing does not fail. -/
theorem opening_whole {db : Database} (hkeys : db.taskIds.Nodup) (hwrites : db.writable = true)
    (hcounts : ∀ row ∈ db.rows, ∀ {n t}, row.Records n t → t.isTerminal = false →
      t.processed ≤ t.total) (now : Int64) :
    ((∃ row ∈ db.rows, ∀ n t, ¬ row.Records n t) →
      (∃ e, openDatabase db now = .error e) ∧ (opening db now).2.rows = db.rows) ∧
    ((∀ row ∈ db.rows, ∃ n t, row.Records n t) →
      ∃ r ended, openDatabase db now = .ok (r, ended) ∧
        OpenedFrom now db r (opening db now).2) := by
  refine ⟨fun hbad => ?_, fun hrecords => openedFrom_opening hkeys hwrites hcounts hrecords now⟩
  obtain ⟨e, he⟩ := opening_of_unrecorded hbad now
  rw [openDatabase, he]
  exact ⟨⟨e, rfl⟩, rfl⟩

section Example

/-- The row of an ended task as somebody else has left it. -/
def oddRow : Row :=
  { Row.ofTask 0 endedTask with status := .text " success ", seq := .integer (-5) }

def corruptRow : Row := { Row.ofTask 8 newTask with status := .text "DONE" }

/-- A running task and an ended one. -/
def mixedRows : Database := { table := some [.ofTask 7 runningTask, oddRow] }

/-- The same rows and one that records no task. -/
def withCorruptRow : Database := { table := some (mixedRows.rows ++ [corruptRow]) }

/-- The running task is ended and its row comes last, unless the corrupt row is there too. -/
theorem opening_whole_mixed :
    (∃ r, openDatabase mixedRows 30 = .ok (r, 1) ∧
      OpenedFrom 30 mixedRows r (opening mixedRows 30).2 ∧
      r.entries = [{ seq := 7, task := interruptedTask }, { seq := 0, task := endedTask }] ∧
      (opening mixedRows 30).2.rows = [oddRow, .ofTask 7 interruptedTask]) ∧
    (∃ e, openDatabase withCorruptRow 30 = .error e) ∧
      (opening withCorruptRow 30).2.rows = [.ofTask 7 runningTask, oddRow, corruptRow] := by
  have hrunning : (Row.ofTask 7 runningTask).read = .ok (7, runningTask) := by decide +kernel
  have hodd : oddRow.read = .ok (0, endedTask) := by decide +kernel
  have hcorrupt : corruptRow.read = .error (.corruptStatus "c" "DONE") := by decide +kernel
  have hcounts : ∀ row ∈ withCorruptRow.rows, ∀ {n t}, row.Records n t → t.isTerminal = false →
      t.processed ≤ t.total := by
    intro row hrow n t hrecords _
    have hrow : row = .ofTask 7 runningTask ∨ row = oddRow ∨ row = corruptRow := by
      simpa [withCorruptRow, mixedRows, Database.rows] using hrow
    obtain rfl | rfl | rfl := hrow
    · obtain ⟨-, rfl⟩ := Prod.mk.inj (Except.ok.inj (hrunning.symm.trans hrecords.read))
      decide
    · obtain ⟨-, rfl⟩ := Prod.mk.inj (Except.ok.inj (hodd.symm.trans hrecords.read))
      decide
    · cases hcorrupt.symm.trans hrecords.read
  have hmixed : mixedRows.taskIds.Nodup := by decide
  have hwith : withCorruptRow.taskIds.Nodup := by decide
  obtain ⟨-, hwhole⟩ := opening_whole hmixed rfl
    (fun row hrow => hcounts row (List.mem_append_left _ hrow)) 30
  obtain ⟨hnone, -⟩ := opening_whole hwith rfl hcounts 30
  obtain ⟨r, ended, hopen, hfrom⟩ := hwhole (by
    intro row hrow
    have hrow : row = .ofTask 7 runningTask ∨ row = oddRow := by
      simpa [mixedRows, Database.rows] using hrow
    obtain rfl | rfl := hrow
    · exact ⟨_, _, Row.records_ofTask 7 runningTask⟩
    · obtain ⟨n, hrecords, -⟩ := Row.records_of_read hodd
      exact ⟨n, _, hrecords⟩)
  obtain ⟨hfails, hrows⟩ := hnone
    ⟨corruptRow, List.mem_append_right _ (.head _), Row.isError_read_iff.mp ⟨_, hcorrupt⟩⟩
  have hvalue : openDatabase mixedRows 30 = .ok
      ({ entries := [{ seq := 7, task := interruptedTask }, { seq := 0, task := endedTask }],
         nextSeq := 8,
         database := some { table := some [oddRow, .ofTask 7 interruptedTask] } }, 1) := by
    decide +kernel
  obtain ⟨rfl, rfl⟩ := Prod.mk.inj (Except.ok.inj (hopen.symm.trans hvalue))
  refine ⟨⟨_, hopen, hfrom, rfl, ?_⟩, hfails, hrows⟩
  rw [← Option.some.inj hfrom.database]
  rfl

end Example

end FirewallRollout.Registry
