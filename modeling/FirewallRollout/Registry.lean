import FirewallRollout.Storage.Database

/-!
# The registry of tasks

Every task that was ever created, with its place in the order of creation, and on request a database
that each change is written through to. A write that fails refuses a new task; it does not hold up a
change to an old one, whose row then lags behind until its next successful write.
-/
namespace FirewallRollout

namespace Registry

structure Entry where
  seq : UInt64
  task : Task
  deriving DecidableEq

/-- What a listing shows; a part that is absent shows everything. -/
structure Filter where
  server : Option String := none
  status : Option Status := none

def Filter.accepts (f : Filter) (t : Task) : Bool :=
  f.server.all (t.server == ·) && f.status.all (t.status == ·)

def defaultPageSize : Nat := 50

def maxPageSize : Nat := 500

/-- The number of tasks on a page: the default for zero, and never more than the greatest. -/
def pageSize (limit : Nat) : Nat := if limit = 0 then defaultPageSize else min limit maxPageSize

/-- The message of a task whose worker went away with its process. -/
def interruptedMessage : String := "interrupted by service restart"

end Registry

structure Registry where
  entries : List Registry.Entry := []
  nextSeq : UInt64 := 0
  database : Option Storage.Database := none
  deriving DecidableEq

namespace Registry

/-- A registry in memory. -/
def empty : Registry := {}

def tasks (r : Registry) : List Task := r.entries.map Entry.task

def size (r : Registry) : Nat := r.entries.length

def find? (r : Registry) (id : String) : Option Entry := r.entries.find? (·.task.id == id)

def get (r : Registry) (id : String) : Except Error Task :=
  match r.find? id with
  | some e => .ok e.task
  | none => .error (.notFound .task id)

/-- Write a task's row, if there is a database. -/
def persist (r : Registry) (seq : UInt64) (t : Task) : Except Error (Option Storage.Database) :=
  match r.database with
  | none => .ok none
  | some db => (db.write (.ofTask seq t)).map some

/-- Register a new task. The attempt takes a place in the order of creation even when refused. -/
def create (r : Registry) (t : Task) : Except Error Task × Registry :=
  let after := { r with nextSeq := r.nextSeq + 1 }
  match r.find? t.id with
  | some _ => (.error (.internal s!"duplicate task id {t.id}"), after)
  | none =>
    match r.persist r.nextSeq t with
    | .error e => (.error e, after)
    | .ok database =>
      (.ok t, { after with entries := r.entries ++ [{ seq := r.nextSeq, task := t }], database })

/-- The registry with the task of an entry replaced and written through. -/
def store (r : Registry) (e : Entry) (t : Task) : Registry :=
  { r with
    entries := r.entries.map fun x => if x.task.id == e.task.id then { x with task := t } else x
    database := match r.persist e.seq t with
      | .ok database => database
      | .error _ => r.database }

/-- The registry after a change to an entry's task: one that makes no difference is not written. -/
def amend (r : Registry) (e : Entry) (t : Task) : Registry := if t = e.task then r else r.store e t

/-- Change a copy of a task, which takes the place of the task unless the change is refused. -/
def update {α : Type} (r : Registry) (id : String) (change : Task → Except Error α × Task) :
    Except Error α × Registry :=
  match r.find? id with
  | none => (.error (.notFound .task id), r)
  | some e =>
    match change e.task with
    | (.error error, _) => (.error error, r)
    | (.ok a, copy) => (.ok a, r.amend e copy)

/-- Change a task by steps, all of them or none. -/
def updateSteps (r : Registry) (id : String) (steps : List Task.Step) :
    Except Error (List Task.Reply) × Registry :=
  r.update id fun t => Task.reported (t.steps steps)

/-- Whether the first entry comes no later in a listing: newest first, and of tasks started at the
same moment the one created last. -/
def Entry.newerFirst (a b : Entry) : Bool :=
  decide (b.task.startedAt.toInt < a.task.startedAt.toInt) ||
    (decide (a.task.startedAt = b.task.startedAt) && decide (b.seq ≤ a.seq))

/-- The tasks that a filter accepts, newest first. -/
def matching (r : Registry) (f : Filter) : List Task :=
  ((r.entries.filter fun e => f.accepts e.task).mergeSort Entry.newerFirst).map Entry.task

/-- One page of a listing, and the length of the whole. -/
def list (r : Registry) (f : Filter) (limit offset : Nat) : List Task × Nat :=
  (((r.matching f).drop offset).take (pageSize limit), (r.matching f).length)

/-- The later created of two entries. -/
def Entry.later (a b : Entry) : Entry := if a.seq ≤ b.seq then b else a

/-- The task of a server that was created last among those that have not ended. -/
def activeFor (r : Registry) (server : String) : Option Task :=
  match r.entries.filter fun e => e.task.server == server && !e.task.isTerminal with
  | [] => none
  | e :: rest => some (rest.foldl Entry.later e).task

/-- How many tasks have not ended. -/
def activeCount (r : Registry) : Nat := r.entries.countP fun e => !e.task.isTerminal

/-- A stored task at a new start of the service, and whether it had to be ended. -/
def restore (now : Int64) (t : Task) : Task × Bool :=
  if t.isTerminal then (t, false) else (t.abandon interruptedMessage now, true)

/-- The sequence that follows those of the entries. -/
def seqAfter (entries : List Entry) : UInt64 :=
  entries.foldl (fun m e => max m (e.seq + 1)) 0

/-- What a new start makes of a row, and whether that has to be written back. -/
def readRow (now : Int64) (row : Storage.Row) : Except Error (UInt64 × Task × Bool) :=
  match row.read with
  | .ok (seq, t) => .ok (seq, restore now t)
  | .error bad => .error bad.error

/-- Open a database: its table is made if missing, every row is read, and the tasks whose worker is
gone are ended and written back. Nothing is written when a row cannot be read. The database that is
left comes with the answer. -/
def opening (db : Storage.Database) (now : Int64) :
    Except Error (Registry × Nat) × Storage.Database :=
  let db := db.prepare
  match db.rows.mapM (readRow now) with
  | .error e => (.error e, db)
  | .ok stored =>
    let entries := stored.map fun x => ({ seq := x.1, task := x.2.1 } : Entry)
    let interrupted := stored.filter (·.2.2)
    let (written, db) := db.writeAll (interrupted.map fun x => .ofTask x.1 x.2.1)
    (written.map fun _ =>
      ({ entries, nextSeq := seqAfter entries, database := some db }, interrupted.length), db)

/-- The registry of a database, and how many of its tasks were ended. -/
def openDatabase (db : Storage.Database) (now : Int64) : Except Error (Registry × Nat) :=
  (opening db now).1

/-- Open the task database that a path leads to; the count is of the tasks that were ended. -/
def openFile (file : Storage.File) (now : Int64) : Except Error (Registry × Nat) :=
  match file with
  | .database db => openDatabase db now
  | .foreign => .error (.storage .notADatabase)
  | .unreachable => .error (.io "not a directory")

end Registry
end FirewallRollout
