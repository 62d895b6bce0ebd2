import FirewallRollout.Proofs.Registry.WriteThrough

/-!
# The last successful write

The row of a task is the whole task as it was at its last successful write, whichever of the writes
since the opening have failed. So a row may be behind its task but never ahead of it, and one write
that succeeds brings it up again.
-/
namespace FirewallRollout.Registry
open Storage (Database Row seqRoom keptSeq_of_lt)

section Opening
variable {now : Int64}

/-- A row that a new start can read. -/
theorem readRow_ok {row : Row} {x : UInt64 × Task × Bool} (h : readRow now row = .ok x) :
    row.taskId = .text x.2.1.id ∧ x.1.toNat < seqRoom ∧
      (x.2.2 = false → row.read = .ok (x.1, x.2.1)) := by
  obtain ⟨n, t, hrecords, rfl⟩ := records_of_readRow h
  refine ⟨?_, Storage.toNat_placeOf_lt n, fun hkept => ?_⟩
  · rw [hrecords.taskId, ← (restore_sameRebuild now t).1]
  · cases ht : t.isTerminal with
    | true => rw [restore_of_isTerminal ht, hrecords.read]
    | false => simp [restore_of_active ht] at hkept

/-- Rows that can be read are under the identifiers of their tasks. -/
theorem taskIds_of_mapM {rows : List Row} {opened : List (UInt64 × Task × Bool)}
    (h : rows.mapM (readRow now) = .ok opened) :
    rows.map Row.taskId = opened.map fun x => .text x.2.1.id :=
  map_eq_of_mapM_ok (fun hx => (readRow_ok hx).1) h

theorem ids_of_mapM {rows : List Row} {opened : List (UInt64 × Task × Bool)}
    (h : rows.mapM (readRow now) = .ok opened) :
    opened.map (·.2.1.id) = rows.filterMap (·.taskId.text?) := by
  have hids := congrArg (List.filterMap Storage.Cell.text?) (taskIds_of_mapM h)
  simpa [List.filterMap_map, Function.comp_def, Storage.Cell.text?] using hids.symm

theorem find?_of_mapM {rows : List Row} {opened : List (UInt64 × Task × Bool)}
    (h : rows.mapM (readRow now) = .ok opened) (id : String) :
    (rows.find? (·.taskId == .text id)).map (readRow now) =
      (opened.find? (·.2.1.id == id)).map .ok := by
  induction rows generalizing opened with
  | nil =>
    obtain rfl := Except.ok.inj h
    rfl
  | cons row rows ih =>
    rw [List.mapM_cons] at h
    obtain ⟨x, hx, h⟩ := bind_ok h
    obtain ⟨rest, hrest, h⟩ := bind_ok h
    obtain rfl := Except.ok.inj h
    rw [List.find?_cons, List.find?_cons, (readRow_ok hx).1]
    by_cases hid : x.2.1.id = id
    · simp [hid, hx]
    · have hcell : Storage.Cell.text x.2.1.id ≠ .text id := by simpa using hid
      simpa [beq_false_of_ne hid, beq_false_of_ne hcell] using ih hrest

end Opening

/-- The table holds what a new start has found there or written there. -/
structure Opened (r : Registry) : Prop where
  backed : r.Backed
  read : ∀ id, (r.row? id).map Row.read = (r.find? id).map fun e => .ok (e.seq, e.task)

section Opened
variable {r : Registry} {id : String}

/-- The row of a task is the whole of it. -/
theorem Opened.row (h : Opened r) {e : Entry} (he : r.find? id = some e) :
    ∃ row, r.row? id = some row ∧ row.read = .ok (e.seq, e.task) := by
  have hread := h.read id
  rw [he] at hread
  exact Option.map_eq_some_iff.mp hread

theorem Opened.taskless (h : Opened r) (hnone : r.find? id = none) : r.row? id = none := by
  have hread := h.read id
  rw [hnone] at hread
  exact Option.map_eq_none_iff.mp hread

end Opened

theorem opened_openDatabase {db : Database} (hkeys : db.taskIds.Nodup) {now : Int64}
    {r : Registry} {ended : Nat} (h : openDatabase db now = .ok (r, ended)) : Opened r := by
  rw [openDatabase_eq] at h
  obtain ⟨opened, hopened, h⟩ := bind_ok h
  obtain ⟨written, hwritten, h⟩ := bind_ok h
  obtain ⟨rfl, -⟩ := Prod.mk.inj (Except.ok.inj h)
  let idOf : UInt64 × Task × Bool → String := fun x => x.2.1.id
  have hkeys' : db.prepare.taskIds.Nodup := hkeys
  have hids : (opened.map idOf).Nodup := by
    rw [ids_of_mapM hopened]
    exact hkeys
  have hrow := Database.row?_foldlM_write idOf (fun _ => rfl) hwritten
    (hids.sublist (List.filter_sublist.map _))
  refine ⟨⟨written, rfl, Database.isSome_table_foldlM_write rfl hwritten,
    Database.nodup_foldlM_write (fun _ => rfl) hkeys' hwritten⟩, fun id => ?_⟩
  have hread : (db.prepare.row? id).map (readRow now) = (opened.find? (idOf · == id)).map .ok :=
    find?_of_mapM hopened id
  have hentry : Registry.find? { entries := opened.map fun x => { seq := x.1, task := x.2.1 } } id =
      (opened.find? (idOf · == id)).map fun x => { seq := x.1, task := x.2.1 } := by
    rw [Registry.find?, List.find?_map]
    rfl
  have hrow := hrow id
  rw [Keyed.find?_filter idOf hids] at hrow
  change (written.row? id).map Row.read = (Registry.find? { entries := _ } id).map _
  rw [hentry, hrow]
  cases hfind : opened.find? (idOf · == id) with
  | none =>
    rw [hfind] at hread
    simp [Option.map_eq_none_iff.mp hread]
  | some x =>
    obtain ⟨row, hdb, hx⟩ := Option.map_eq_some_iff.mp (hfind ▸ hread)
    obtain ⟨-, hroom, hkept⟩ := readRow_ok hx
    cases hended : x.2.2 with
    | true => simp [Option.filter, hended, Row.read_ofTask, keptSeq_of_lt hroom]
    | false => simp [Option.filter, hended, hdb, hkept hended]

/-- A task's row as it was last written, with the entry that was in memory then: either the table
was opened with it, or one of the attempts has written it. -/
inductive LastWrite (first : Registry) (l : List Attempt) (id : String) : Entry → Row → Prop where
  | opening {d : Entry} {row : Row} (memory : first.find? id = some d)
      (there : first.row? id = some row) (whole : row.read = .ok (d.seq, d.task))
      (since : ¬ first.WritesIn l id) : LastWrite first l id d row
  | attempt {d : Entry} (before after : List Attempt) (a : Attempt)
      (split : l = before ++ a :: after) (writes : (first.attempts before).Writes a id)
      (memory : ((first.attempts before).attempt a).find? id = some d)
      (since : ¬ ((first.attempts before).attempt a).WritesIn after id) :
      LastWrite first l id d d.row

theorem attempt_attempts_append (r : Registry) (before after : List Attempt) (a : Attempt) :
    r.attempts (before ++ a :: after) = ((r.attempts before).attempt a).attempts after :=
  r.attempts_append before (a :: after)

theorem writesIn_snoc {r : Registry} {l : List Attempt} {a : Attempt} {id : String} :
    r.WritesIn (l ++ [a]) id ↔ r.WritesIn l id ∨ (r.attempts l).Writes a id := by
  simp [writesIn_append, WritesIn]

/-- An attempt that does not write a task leaves its last write what it was. -/
theorem LastWrite.snoc {first : Registry} {l : List Attempt} {id : String} {d : Entry} {row : Row}
    (h : LastWrite first l id d row) {a : Attempt} (ha : ¬ (first.attempts l).Writes a id) :
    LastWrite first (l ++ [a]) id d row := by
  cases h with
  | opening memory there whole since =>
    exact .opening memory there whole fun hin => (writesIn_snoc.mp hin).elim since ha
  | attempt before after b split writes memory since =>
    subst split
    rw [attempt_attempts_append] at ha
    exact .attempt before (after ++ [a]) b (by simp) writes memory fun hin =>
      (writesIn_snoc.mp hin).elim since ha

/-- What holds of the table at any moment. -/
structure Following (first : Registry) (l : List Attempt) (r : Registry) : Prop where
  backed : r.Backed
  /-- Each task has a row, of its last successful write, and keeps its place in the order. -/
  row : ∀ {id e}, r.find? id = some e →
    ∃ d row, LastWrite first l id d row ∧ r.row? id = some row ∧ d.seq = e.seq
  taskless : ∀ {id}, r.find? id = none → r.row? id = none

theorem Opened.following {r : Registry} (h : Opened r) : Following r [] r where
  backed := h.backed
  row {id e} he := by
    obtain ⟨row, hrow, hwhole⟩ := h.row he
    exact ⟨e, row, .opening he hrow hwhole fun hin => hin, hrow, rfl⟩
  taskless := h.taskless

theorem not_writes_iff {r : Registry} {a : Attempt} {id : String} :
    ¬ r.Writes a id ↔ a.fails = true ∨ (r.attempt a).find? id = r.find? id := by
  cases hfails : a.fails <;> simp [Writes, hfails]

/-- One more attempt, whether it fails or not. -/
theorem Following.attempt {first : Registry} {l : List Attempt}
    (h : Following first l (first.attempts l)) (a : Attempt) :
    Following first (l ++ [a]) ((first.attempts l).attempt a) := by
  have hperformed := h.backed.performed a
  refine ⟨hperformed.backed, fun {id e'} he' => ?_, fun {id} hnone => ?_⟩
  · by_cases hwrites : (first.attempts l).Writes a id
    · obtain ⟨d, hd, hrow⟩ := hperformed.recorded hwrites.1 hwrites.2
      obtain rfl := Option.some.inj (hd.symm.trans he')
      exact ⟨d, d.row, .attempt l [] a rfl hwrites hd fun hin => hin, hrow, rfl⟩
    · have hidle := not_writes_iff.mp hwrites
      cases hfind : (first.attempts l).find? id with
      | none =>
        -- a new task that was not written would be one that nothing has changed
        have hfails := hperformed.born hfind he'
        rw [hfails, hfind, he'] at hidle
        simp at hidle
      | some e =>
        obtain ⟨e'', he'', hseq⟩ := hperformed.grows hfind
        obtain rfl := Option.some.inj (he''.symm.trans he')
        obtain ⟨d, row, hlast, hrow, hd⟩ := h.row hfind
        exact ⟨d, row, hlast.snoc hwrites, (hperformed.untouched hidle).trans hrow,
          hd.trans hseq.symm⟩
  · have hbefore := hperformed.find?_eq_none hnone
    rw [hperformed.untouched (.inr (hnone.trans hbefore.symm))]
    exact h.taskless hbefore

theorem Opened.following_attempts {first : Registry} (h : Opened first) (l : List Attempt) :
    Following first l (first.attempts l) := by
  induction l using List.reverseRecOn with
  | nil => exact h.following
  | append_singleton l a ih =>
    rw [attempts_append]
    exact ih.attempt a

/-- A registry that is written through, and what one more failing or successful write does. -/
structure WrittenThrough (first : Registry) (l : List Attempt) (r : Registry) : Prop
    extends Following first l r where
  /-- A creation that cannot be written adds neither a task nor a row. -/
  refused : ∀ t, (∃ error, ((r.allowing false).create t).1 = .error error) ∧
    (r.attempt ⟨.create t, true⟩).entries = r.entries ∧
    (r.attempt ⟨.create t, true⟩).table = r.table
  /-- An update that cannot be written has its result and changes the task in memory. -/
  ahead : ∀ {α : Type} {id : String} {change : Task → Except Error α × Task} {e : Entry} {a : α}
    {t : Task}, r.find? id = some e → change e.task = (.ok a, t) → t.id = id →
    ∃ r', (r.allowing false).update id change = (.ok a, r') ∧
      r'.find? id = some { e with task := t } ∧ r'.table = r.table
  /-- A change that is written brings the row up to the task in memory. -/
  caughtUp : ∀ {a id}, r.Writes a id →
    ∃ e, (r.attempt a).find? id = some e ∧ (r.attempt a).row? id = some e.row

section Failing
variable {r : Registry} (h : r.Backed)
include h

theorem Backed.create_closed (t : Task) :
    (∃ error, ((r.allowing false).create t).1 = .error error) ∧
      (r.attempt ⟨.create t, true⟩).entries = r.entries ∧
      (r.attempt ⟨.create t, true⟩).table = r.table := by
  obtain ⟨error, hclosed⟩ := h.persist_closed r.nextSeq t
  cases hfind : r.find? t.id with
  | some e =>
    simp only [Registry.attempt, perform, Registry.create, find?_allowing, hfind]
    exact ⟨⟨_, rfl⟩, rfl, r.table_allowing false⟩
  | none =>
    simp only [Registry.attempt, perform, Registry.create, find?_allowing, nextSeq_allowing, hfind,
      Bool.not_true, hclosed]
    exact ⟨⟨_, rfl⟩, rfl, r.table_allowing false⟩

theorem Backed.update_closed {α : Type} {id : String} {change : Task → Except Error α × Task}
    {e : Entry} {a : α} {t : Task} (he : r.find? id = some e) (hchange : change e.task = (.ok a, t))
    (hid : t.id = id) :
    ∃ r', (r.allowing false).update id change = (.ok a, r') ∧
      r'.find? id = some { e with task := t } ∧ r'.table = r.table := by
  refine ⟨(r.allowing false).amend e t, update_eq_ok_iff.mpr ⟨e, t, he, hchange, rfl⟩, ?_,
    h.table_amend_closed e t⟩
  rw [find?_amend (r := r.allowing false) he (hid.trans (id_of_find? he).symm), if_pos rfl]

end Failing

/-- Whatever is asked of a registry since it was opened, and whichever writes have failed: a task's
row is the whole of it as it was at its last successful write. No two rows of the table that is
opened are under one identifier. -/
theorem writtenThrough_attempts {db : Database} (hids : db.taskIds.Nodup) {now : Int64}
    {first : Registry} {ended : Nat} (hopen : openDatabase db now = .ok (first, ended))
    (l : List Attempt) : WrittenThrough first l (first.attempts l) := by
  have hfollowing := (opened_openDatabase hids hopen).following_attempts l
  exact
    { toFollowing := hfollowing
      refused := hfollowing.backed.create_closed
      ahead := hfollowing.backed.update_closed
      caughtUp := fun {a id} hwrites =>
        (hfollowing.backed.performed a).recorded hwrites.1 hwrites.2 }

section Example

def leftRunning : Task := { Task.create "a" "S1" 3 false 10 with status := .running }

def secondTask : Task := Task.create "b" "S2" 3 false 30

def stepsOf (id : String) (steps : List Task.Step) (fails : Bool) : Attempt :=
  ⟨.update id (Task.Mutation.ofSteps steps).amendment, fails⟩

/-- Of two creations and one start, all but the second creation are not written. -/
def lagging : List Attempt :=
  [⟨.create (Task.create "c" "S3" 3 false 30), true⟩, ⟨.create secondTask, false⟩,
   stepsOf "b" [.start] true]

/-- The second task runs ahead of its row until progress is written. -/
theorem writtenThrough_attempts_lagging :
    ∃ first, openDatabase (tableOf [{ seq := 4, task := leftRunning }]) 30 = .ok (first, 1) ∧
      WrittenThrough first lagging (first.attempts lagging) ∧
      (first.attempts lagging).find? "b" =
        some { seq := 6, task := { secondTask with status := .running } } ∧
      (first.attempts lagging).row? "b" = some (.ofTask 6 secondTask) ∧
      ((first.attempts lagging).attempt (stepsOf "b" [.progress 2] false)).row? "b" =
        some (.ofTask 6 { secondTask with status := .running, processed := 2 }) := by
  have hids : ([{ seq := 4, task := leftRunning }].map fun e : Entry => e.task.id).Nodup := by decide
  have hopen := openDatabase_tableOf hids 30
  refine ⟨_, hopen, writtenThrough_attempts (by decide) hopen lagging, ?_, ?_, ?_⟩ <;>
    decide +kernel

end Example

end FirewallRollout.Registry
