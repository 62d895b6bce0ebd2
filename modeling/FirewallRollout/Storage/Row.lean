import FirewallRollout.Storage.Numeral
import FirewallRollout.Task.Basic

/-!
# Rows of the task table

A stored task: one cell for each column. A column of integers takes a text that spells one as the
number, and a column of texts takes an integer as its text; a cell that still has the wrong type is
found out only when the row is read.
-/
namespace FirewallRollout.Storage

/-- What a table holds in one column of a row. -/
inductive Cell where
  | null
  | integer (n : Int64)
  | text (s : String)
  /-- A number in floating point. No reader takes one, so that its value is left out. -/
  | real
  /-- Text that is not UTF-8. -/
  | garbled (octets : List UInt8)
  | blob (octets : List UInt8)
  deriving DecidableEq

/-- What somebody else stores in a column. -/
inductive Value where
  | null
  | integer (n : Int64)
  | text (s : String)

namespace Value

/-- The cell that a column of integers stores. -/
def inIntegers : Value → Cell
  | null => .null
  | integer n => .integer n
  | text s =>
    match Numeral.integer? s with
    | some n => .integer n
    | none => if Numeral.isNumeral s then .real else .text s

/-- The cell that a column of texts stores. -/
def inTexts : Value → Cell
  | null => .null
  | integer n => .text (toString n.toInt)
  | text s => .text s

end Value

namespace Cell

def text? : Cell → Option String
  | text s => some s
  | _ => none

def integer? : Cell → Option Int64
  | integer n => some n
  | _ => none

def word32? (c : Cell) : Option UInt32 := c.integer?.bind fun n => Text.word32? n.toInt

/-- The cell for a column that takes no null. -/
def solid? : Cell → Option Cell
  | null => none
  | c => some c

/-- A value that may be null. -/
def nullable {α : Type} (read : Cell → Option α) : Cell → Option (Option α)
  | null => some none
  | c => (read c).map some

def ofText? (s : Option String) : Cell := s.elim null text

def ofWord32 (n : UInt32) : Cell := integer (.ofNat n.toNat)

end Cell

structure Row where
  taskId : Cell
  seq : Cell
  server : Cell
  status : Cell
  total : Cell
  processed : Cell
  failed : Cell
  force : Cell
  errorMessage : Cell
  startedAt : Cell
  completedAt : Cell
  deriving DecidableEq

/-- Why a row is no task. -/
inductive BadRow where
  | wrongType
  | corruptStatus (taskId status : String)
  deriving DecidableEq

def BadRow.error : BadRow → Error
  | wrongType => .storage .wrongColumnType
  | corruptStatus taskId status => .internal s!"task {taskId} has corrupt status '{status}'"

namespace Row

/-- The row of a task with its creation sequence, whose bits a column of integers holds. -/
def ofTask (seq : UInt64) (t : Task) : Row :=
  { taskId := .text t.id
    seq := .integer seq.toInt64
    server := .text t.server
    status := .text t.status.name
    total := .ofWord32 t.total
    processed := .ofWord32 t.processed
    failed := .ofWord32 t.failed
    force := .integer (if t.force then 1 else 0)
    errorMessage := .ofText? t.errorMessage
    startedAt := .integer t.startedAt
    completedAt := t.completedAt.elim .null .integer }

/-- The columns of a row as a task with the text of its status, all types being right. -/
def columns? (r : Row) : Option (Int64 × String × (Status → Task)) := do
  let seq ← r.seq.integer?
  let status ← r.status.text?
  let id ← r.taskId.text?
  let server ← r.server.text?
  let total ← r.total.word32?
  let processed ← r.processed.word32?
  let failed ← r.failed.word32?
  let force ← r.force.integer?
  let errorMessage ← r.errorMessage.nullable Cell.text?
  let startedAt ← r.startedAt.integer?
  let completedAt ← r.completedAt.nullable Cell.integer?
  some (seq, status, fun status =>
    { id, server, status, total, processed, failed, force := force != 0, errorMessage, startedAt,
      completedAt })

/-- The task of a row with its creation sequence; a negative sequence counts as zero. -/
def read (r : Row) : Except BadRow (UInt64 × Task) :=
  match r.columns? with
  | none => .error .wrongType
  | some (seq, name, task) =>
    match Status.parse? name with
    | none => .error (.corruptStatus (task .failed).id name)
    | some status => .ok (.ofNat seq.toInt.toNat, task status)

/-- A row with a value stored in the column of a name, if that column exists and takes the value. -/
def setColumn? (r : Row) (column : String) (v : Value) : Option Row :=
  match column with
  | "task_id" => some { r with taskId := v.inTexts }
  | "seq" => v.inIntegers.solid?.map fun c => { r with seq := c }
  | "server_id" => v.inTexts.solid?.map fun c => { r with server := c }
  | "status" => v.inTexts.solid?.map fun c => { r with status := c }
  | "total_rules" => v.inIntegers.solid?.map fun c => { r with total := c }
  | "processed_rules" => v.inIntegers.solid?.map fun c => { r with processed := c }
  | "failed_rules" => v.inIntegers.solid?.map fun c => { r with failed := c }
  | "force" => v.inIntegers.solid?.map fun c => { r with force := c }
  | "error_message" => some { r with errorMessage := v.inTexts }
  | "started_at" => v.inIntegers.solid?.map fun c => { r with startedAt := c }
  | "completed_at" => some { r with completedAt := v.inIntegers }
  | _ => none

end Row
end FirewallRollout.Storage
