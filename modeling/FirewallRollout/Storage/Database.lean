import FirewallRollout.Storage.Row

/-!
# The task database

A table of rows with one row for each task, in the order in which the rows were last written. Rows
may also be changed by others, and the table may be gone or closed to writing.
-/
namespace FirewallRollout.Storage

/-- A database; it has no table before it is first opened. -/
structure Database where
  table : Option (List Row) := none
  writable : Bool := true
  deriving DecidableEq

/-- What a path for the task database leads to. -/
inductive File where
  | database (db : Database)
  /-- A file that holds something else. -/
  | foreign
  /-- A path that leads to no file and leaves no room for one. -/
  | unreachable

namespace Database

def rows (db : Database) : List Row := db.table.getD []

/-- The database with its table in place. -/
def prepare (db : Database) : Database := { db with table := some db.rows }

/-- Change the rows of the table, which has to be there. -/
def edit (db : Database) (change : List Row → Except Error (List Row)) : Except Error Database :=
  match db.table with
  | none => .error (.storage .missingTable)
  | some rows => (change rows).map fun rows => { db with table := some rows }

/-- Write a row in place of the one with its task identifier; it becomes the last row. -/
def write (db : Database) (row : Row) : Except Error Database :=
  db.edit fun rows =>
    if db.writable then .ok (rows.filter (·.taskId != row.taskId) ++ [row])
    else .error (.storage .readOnly)

/-- Rows that are written one after the other, with the database that this leaves: after one that is
refused no other is tried. -/
def writeAll (db : Database) : List Row → Except Error Unit × Database
  | [] => (.ok (), db)
  | row :: rows =>
    match db.write row with
    | .ok next => next.writeAll rows
    | .error e => (.error e, db)

/-- Take the table away. -/
def drop (db : Database) : Except Error Database :=
  if db.table.isSome then .ok { db with table := none } else .error (.storage .missingTable)

/-- Delete the row of a task. -/
def delete (db : Database) (taskId : String) : Except Error Database :=
  db.edit fun rows => .ok (rows.filter (·.taskId != .text taskId))

/-- Whether a table admits a row in place of one of its own. -/
def admits (rows : List Row) (old new : Row) : Bool :=
  new.taskId = .null || (rows.filter (· != old)).all (·.taskId != new.taskId)

/-- Store a value in a column of a task's row, which stays where it is. A row that the table does not
admit, by a null or by the task identifier of another row, is refused. -/
def setColumn (db : Database) (taskId column : String) (v : Value) : Except Error Database :=
  db.edit fun rows =>
    match rows.find? (·.taskId = .text taskId) with
    | none => .ok rows
    | some row =>
      match (row.setColumn? column v).filter (admits rows row) with
      | none => .error (.storage .constraint)
      | some changed => .ok (rows.map fun r => if r = row then changed else r)

end Database
end FirewallRollout.Storage
