/-!
# Errors

What a request can fail with: a kind, a text for people, a stable code and an HTTP status for
programs. The modules that find a fault say what is wrong in types of their own and turn it into one
of these kinds.
-/
namespace FirewallRollout

/-- What a missing thing is. -/
inductive Entity where
  | task
  | server
  | rule
  deriving DecidableEq

def Entity.name : Entity → String
  | .task => "task"
  | .server => "server"
  | .rule => "rule"

/-- Why the task database did not do what it was asked. -/
inductive StorageFault where
  | invalidParameter (name : String)
  | wrongColumnType
  /-- A row that the table does not admit. -/
  | constraint
  | readOnly
  | missingTable
  | notADatabase
  deriving DecidableEq

def StorageFault.message : StorageFault → String
  | invalidParameter name => s!"Invalid parameter name: {name}"
  | wrongColumnType => "wrong type in a column"
  | constraint => "constraint failed"
  | readOnly => "attempt to write a readonly database"
  | missingTable => "no such table: rebuild_tasks"
  | notADatabase => "file is not a database"

inductive Error where
  /-- A field of a record or a request has a value that does not do. -/
  | validation (field message : String)
  | notFound (entity : Entity) (id : String)
  /-- The server's rebuild slot is taken. -/
  | conflict (message : String)
  | invalidOperation (message : String)
  /-- A command failed on the server. -/
  | execution (message : String)
  /-- A rebuild ran past its budget. -/
  | timeout (message : String)
  | storage (fault : StorageFault)
  | config (message : String)
  | io (message : String)
  | internal (message : String)
  deriving DecidableEq

namespace Error

/-- The text for people. -/
def message : Error → String
  | validation field message => s!"Validation error in {field}: {message}"
  | notFound entity id => s!"{entity.name} not found: {id}"
  | conflict message => s!"Conflict: {message}"
  | invalidOperation message => s!"Invalid operation: {message}"
  | execution message | timeout message => message
  | storage fault => s!"Storage error: {fault.message}"
  | config message => s!"Configuration error: {message}"
  | io message => s!"I/O error: {message}"
  | internal message => s!"Internal error: {message}"

/-- The stable code for programs. -/
def code : Error → String
  | validation .. => "VALIDATION_ERROR"
  | notFound .task _ => "TASK_NOT_FOUND"
  | notFound .server _ => "SERVER_NOT_FOUND"
  | notFound .rule _ => "RULE_NOT_FOUND"
  | conflict _ => "CONFLICT"
  | invalidOperation _ => "INVALID_OPERATION"
  | execution _ => "EXECUTION_FAILED"
  | timeout _ => "TIMEOUT"
  | storage _ | config _ | io _ | internal _ => "INTERNAL_ERROR"

/-- The status of a response that reports the error. -/
def httpStatus : Error → Nat
  | validation .. | invalidOperation _ => 400
  | notFound .. => 404
  | conflict _ => 409
  | execution _ => 502
  | timeout _ => 504
  | storage _ | config _ | io _ | internal _ => 500

end Error
end FirewallRollout
