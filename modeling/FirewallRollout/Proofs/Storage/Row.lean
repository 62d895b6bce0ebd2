import FirewallRollout.Storage.Row

/-!
# Rows as records

The rows that are records of tasks, column by column. Reading a row finds exactly these: a row with a
cell of another type, a counter beyond 32 bits or a word that is no status is the record of no task.
The row of a task is read back as that task. Its creation sequence comes back as it was when a column
of integers has room for it; beyond that the column holds a negative number, which counts as zero.
-/
namespace FirewallRollout

theorem Text.word32?_eq_some_iff {n : Int} {w : UInt32} : word32? n = some w ↔ n = w.toNat := by
  constructor
  · intro h
    simp only [word32?, Bool.and_eq_true, decide_eq_true_eq, Option.ite_none_right_eq_some,
      Option.some.injEq] at h
    obtain ⟨⟨hnonneg, hlt⟩, rfl⟩ := h
    rw [UInt32.toNat_ofNat_of_lt' hlt]
    omega
  · rintro rfl
    have hlt : w.toNat < UInt32.size := w.toNat_lt
    simp [word32?, hlt]

theorem Status.parse?_name (s : Status) : parse? s.name = some s := by
  cases s <;> decide +kernel

namespace Storage

namespace Cell
variable {c : Cell}

theorem text?_eq_some_iff {s : String} : c.text? = some s ↔ c = .text s := by
  cases c <;> simp [text?]

theorem integer?_eq_some_iff {n : Int64} : c.integer? = some n ↔ c = .integer n := by
  cases c <;> simp [integer?]

theorem word32?_eq_some_iff {w : UInt32} :
    c.word32? = some w ↔ ∃ n, c = .integer n ∧ n.toInt = w.toNat := by
  simp [word32?, Option.bind_eq_some_iff, integer?_eq_some_iff, Text.word32?_eq_some_iff]

theorem nullable_text?_eq_some_iff {s : Option String} :
    c.nullable text? = some s ↔ c = .ofText? s := by
  cases c <;> cases s <;> simp [nullable, text?, ofText?]

theorem nullable_integer?_eq_some_iff {n : Option Int64} :
    c.nullable integer? = some n ↔ c = n.elim .null .integer := by
  cases c <;> cases n <;> simp [nullable, integer?]

end Cell

/-- The row is a record of the task, with a number for its place in the order of creation. -/
structure Row.Records (r : Row) (n : Int64) (t : Task) : Prop where
  taskId : r.taskId = .text t.id
  seq : r.seq = .integer n
  server : r.server = .text t.server
  /-- The word may be in any case and have blanks around. -/
  status : ∃ word, r.status = .text word ∧ Status.parse? word = some t.status
  total : ∃ m, r.total = .integer m ∧ m.toInt = t.total.toNat
  processed : ∃ m, r.processed = .integer m ∧ m.toInt = t.processed.toNat
  failed : ∃ m, r.failed = .integer m ∧ m.toInt = t.failed.toNat
  /-- Any number but zero forces. -/
  force : ∃ m, r.force = .integer m ∧ t.force = (m != 0)
  errorMessage : r.errorMessage = .ofText? t.errorMessage
  startedAt : r.startedAt = .integer t.startedAt
  completedAt : r.completedAt = t.completedAt.elim .null .integer

/-- The place in the order of creation that a stored number stands for: zero if it is negative. -/
def placeOf (n : Int64) : UInt64 := .ofNat n.toInt.toNat

/-- A record is read as the task that it is of. -/
theorem Row.Records.read {r : Row} {n : Int64} {t : Task} (h : r.Records n t) :
    r.read = .ok (placeOf n, t) := by
  obtain ⟨hid, hseq, hserver, ⟨word, hstatus, hword⟩, htotal, hprocessed, hfailed,
    ⟨m, hforce, hforced⟩, herror, hstarted, hcompleted⟩ := h
  rw [← Cell.word32?_eq_some_iff] at htotal hprocessed hfailed
  rw [← Cell.nullable_text?_eq_some_iff] at herror
  rw [← Cell.nullable_integer?_eq_some_iff] at hcompleted
  simp [Row.read, columns?, Cell.integer?, Cell.text?, placeOf, ← hforced, hid, hseq, hserver,
    hstatus, hword, htotal, hprocessed, hfailed, hforce, herror, hstarted, hcompleted]

/-- What is read is the task of a record. -/
theorem Row.records_of_read {r : Row} {seq : UInt64} {t : Task} (h : r.read = .ok (seq, t)) :
    ∃ n, r.Records n t ∧ seq = placeOf n := by
  unfold Row.read at h
  split at h
  · cases h
  next n word task hcolumns =>
  split at h
  · cases h
  next status hstatus =>
  obtain ⟨rfl, rfl⟩ := Prod.mk.inj (Except.ok.inj h)
  simp only [columns?, Option.bind_eq_bind, Option.bind_eq_some_iff, Cell.text?_eq_some_iff,
    Cell.integer?_eq_some_iff, Cell.word32?_eq_some_iff, Cell.nullable_text?_eq_some_iff,
    Cell.nullable_integer?_eq_some_iff, Option.some.injEq, Prod.mk.injEq] at hcolumns
  obtain ⟨_, hseq, _, hword, id, hid, server, hserver, total, htotal, processed, hprocessed,
    failed, hfailed, force, hforce, message, hmessage, started, hstarted, completed, hcompleted,
    rfl, rfl, rfl⟩ := hcolumns
  exact ⟨_, ⟨hid, hseq, hserver, ⟨_, hword, hstatus⟩, htotal, hprocessed, hfailed,
    ⟨force, hforce, rfl⟩, hmessage, hstarted, hcompleted⟩, rfl⟩

/-- A row is the record of one task. -/
theorem Row.Records.unique {r : Row} {n m : Int64} {t u : Task} (h : r.Records n t)
    (h' : r.Records m u) : placeOf n = placeOf m ∧ t = u :=
  Prod.mk.inj (Except.ok.inj (h.read.symm.trans h'.read))

/-- A row that cannot be read is the record of no task. -/
theorem Row.isError_read_iff {r : Row} :
    (∃ bad, r.read = .error bad) ↔ ∀ n t, ¬ r.Records n t := by
  cases hread : r.read with
  | error bad =>
    refine ⟨fun _ n t hrecords => ?_, fun _ => ⟨bad, rfl⟩⟩
    rw [hrecords.read] at hread
    cases hread
  | ok stored =>
    obtain ⟨n, hrecords, -⟩ := records_of_read hread
    refine ⟨?_, fun hnone => absurd hrecords (hnone n _)⟩
    rintro ⟨bad, hbad⟩
    cases hbad

/-- A number in floating point is no counter. -/
example : ({ Row.ofTask 0 (Task.create "a" "S1" 3 false 10) with total := .real }).read =
    .error .wrongType :=
  rfl

/-- How many creation sequences a column of integers has room for. -/
def seqRoom : Nat := 0x8000000000000000

/-- What a column of integers gives back for a creation sequence. -/
def keptSeq (seq : UInt64) : UInt64 := .ofNat seq.toInt64.toInt.toNat

theorem keptSeq_of_lt {seq : UInt64} (h : seq.toNat < seqRoom) : keptSeq seq = seq := by
  have hint : seq.toInt64.toInt = seq.toNat := by
    rw [← Int64.toInt_ofNat_of_lt h, ← UInt64.toInt64_ofNat', UInt64.ofNat_toNat]
  rw [keptSeq, hint, Int.toNat_natCast, UInt64.ofNat_toNat]

theorem toNat_placeOf_lt (n : Int64) : (placeOf n).toNat < seqRoom := by
  have hlt := n.toInt_lt
  have hsize : n.toInt.toNat < UInt64.size := by
    simp only [UInt64.size]
    omega
  rw [placeOf, UInt64.toNat_ofNat_of_lt' hsize]
  simp only [seqRoom]
  omega

theorem toNat_keptSeq_lt (seq : UInt64) : (keptSeq seq).toNat < seqRoom :=
  toNat_placeOf_lt seq.toInt64

@[simp] theorem keptSeq_keptSeq (seq : UInt64) : keptSeq (keptSeq seq) = keptSeq seq :=
  keptSeq_of_lt (toNat_keptSeq_lt seq)

theorem Cell.exists_ofWord32 (w : UInt32) : ∃ m, ofWord32 w = .integer m ∧ m.toInt = w.toNat := by
  have hlt := w.toNat_lt
  exact ⟨_, rfl, Int64.toInt_ofNat_of_lt (by omega)⟩

theorem Row.records_ofTask (seq : UInt64) (t : Task) :
    (Row.ofTask seq t).Records seq.toInt64 t where
  taskId := rfl
  seq := rfl
  server := rfl
  status := ⟨_, rfl, Status.parse?_name t.status⟩
  total := Cell.exists_ofWord32 t.total
  processed := Cell.exists_ofWord32 t.processed
  failed := Cell.exists_ofWord32 t.failed
  force := ⟨_, rfl, by cases t.force <;> decide⟩
  errorMessage := rfl
  startedAt := rfl
  completedAt := rfl

theorem Row.read_ofTask (seq : UInt64) (t : Task) : (Row.ofTask seq t).read = .ok (keptSeq seq, t) :=
  (records_ofTask seq t).read

end Storage
end FirewallRollout
