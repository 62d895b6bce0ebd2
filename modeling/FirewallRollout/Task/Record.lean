import FirewallRollout.Task.Basic

/-!
# Records of tasks

The record of a task by name or by position, and the record that is written.
-/
namespace FirewallRollout.Task

/-- The fields of a task record, in order. -/
def layout : Layout :=
  [{ name := "taskId" }, { name := "serverId" }, { name := "status" }, { name := "totalRules" },
   { name := "processedRules" }, { name := "failedRules" }, { name := "force" },
   { name := "errorMessage", trailing := true }, { name := "startedAt" },
   { name := "completedAt", trailing := true }]

def ofDatum? (d : Datum) : Option Task := do
  let fields ← layout.read? .refused d
  let id ← fields.required "taskId" Datum.text?
  let server ← fields.required "serverId" Datum.text?
  let status ← fields.required "status" Status.ofDatum?
  let total ← fields.required "totalRules" Datum.word32?
  let processed ← fields.required "processedRules" Datum.word32?
  let failed ← fields.required "failedRules" Datum.word32?
  let force ← fields.required "force" Datum.bool?
  let errorMessage ← fields.optional "errorMessage" Datum.text?
  let startedAt ← fields.required "startedAt" Datum.int64?
  let completedAt ← fields.optional "completedAt" Datum.int64?
  some { id, server, status, total, processed, failed, force, errorMessage, startedAt, completedAt }

/-- The values of all fields in the layout's order, with a way to write moments. -/
def valuesWith (moment : Int64 → Datum) (t : Task) : List Datum :=
  [.text t.id, .text t.server, .text t.status.name, .ofNat t.total.toNat,
   .ofNat t.processed.toNat, .ofNat t.failed.toNat, .bool t.force, .ofText? t.errorMessage,
   moment t.startedAt, t.completedAt.elim .null moment]

/-- The record of a task by name, without the fields that are absent. -/
def toDatumWith (moment : Int64 → Datum) (t : Task) : Datum :=
  .record (layout.entries (t.valuesWith moment))

def toDatum (t : Task) : Datum := t.toDatumWith .ofInt64

end FirewallRollout.Task
