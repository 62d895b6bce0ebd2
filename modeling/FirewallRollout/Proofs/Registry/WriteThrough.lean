import FirewallRollout.Proofs.Registry.Lookup
import FirewallRollout.Proofs.Registry.Stored
import FirewallRollout.Proofs.Storage.Database

/-!
# Writing through

A registry that was opened on a table of rows goes on while some of its writes fail. A write that
fails keeps a new task out and lets an old one run ahead of its row; the row is always the whole task
as it was when it was last written.
-/
namespace FirewallRollout
open Storage (Database Row)

/-- A change of tasks that leaves them under their identifiers. -/
structure Task.Amendment where
  change : Task → Except Error Unit × Task
  keeps : ∀ {t u}, change t = (.ok (), u) → u.id = t.id

/-- The operations on tasks make such changes. -/
def Task.Mutation.amendment (m : Task.Mutation) : Task.Amendment where
  change := m.change
  keeps h := (m.keeps h).1.1

namespace Registry

/-- What is asked of a registry. -/
inductive Call where
  | create (t : Task)
  | update (id : String) (m : Task.Amendment)

structure Attempt where
  call : Call
  /-- Whether the table takes no write meanwhile. -/
  fails : Bool := false

/-- The registry with its table open to writing, or closed. -/
def allowing (r : Registry) (writes : Bool) : Registry :=
  { r with database := r.database.map fun db => { db with writable := writes } }

def perform (r : Registry) : Call → Registry
  | .create t => (r.create t).2
  | .update id m => (r.update id m.change).2

def attempt (r : Registry) (a : Attempt) : Registry := (r.allowing !a.fails).perform a.call

def attempts (r : Registry) (l : List Attempt) : Registry := l.foldl attempt r

/-- The attempt makes a difference to a task while the table takes writes. -/
def Writes (r : Registry) (a : Attempt) (id : String) : Prop :=
  a.fails = false ∧ (r.attempt a).find? id ≠ r.find? id

/-- One of the attempts does. -/
def WritesIn (r : Registry) : List Attempt → String → Prop
  | [], _ => False
  | a :: rest, id => r.Writes a id ∨ (r.attempt a).WritesIn rest id

/-- The row of a task. -/
def row? (r : Registry) (id : String) : Option Row := r.database.bind (·.row? id)

def table (r : Registry) : Option (List Row) := r.database.bind Database.table

/-- There is a table, with at most one row for each task. -/
def Backed (r : Registry) : Prop :=
  ∃ db, r.database = some db ∧ db.table.isSome = true ∧ db.taskIds.Nodup

theorem attempts_append (r : Registry) (l l' : List Attempt) :
    r.attempts (l ++ l') = (r.attempts l).attempts l' :=
  List.foldl_append

theorem writesIn_append {r : Registry} {l l' : List Attempt} {id : String} :
    r.WritesIn (l ++ l') id ↔ r.WritesIn l id ∨ (r.attempts l).WritesIn l' id := by
  induction l generalizing r with
  | nil => simp [WritesIn, attempts]
  | cons a l ih => simp [WritesIn, ih, attempts, or_assoc]

section Allowing
variable (r : Registry) (writes : Bool)

@[simp] theorem nextSeq_allowing : (r.allowing writes).nextSeq = r.nextSeq := rfl

@[simp] theorem find?_allowing (id : String) : (r.allowing writes).find? id = r.find? id := rfl

@[simp] theorem row?_allowing (id : String) : (r.allowing writes).row? id = r.row? id := by
  cases hdb : r.database <;> simp [row?, allowing, hdb, Database.row?, Database.rows]

@[simp] theorem table_allowing : (r.allowing writes).table = r.table := by
  cases hdb : r.database <;> simp [table, allowing, hdb]

end Allowing

section Backed
variable {r : Registry} (h : r.Backed)
include h

theorem Backed.allowing (writes : Bool) : (r.allowing writes).Backed := by
  obtain ⟨db, hdb, htable, hkeys⟩ := h
  exact ⟨{ db with writable := writes }, by simp [Registry.allowing, hdb], htable, hkeys⟩

theorem Backed.persist_closed (seq : UInt64) (t : Task) :
    ∃ error, (r.allowing false).persist seq t = .error error := by
  cases hpersist : (r.allowing false).persist seq t with
  | error error => exact ⟨error, rfl⟩
  | ok database =>
    obtain ⟨db, hdb, -⟩ := h
    have hwritable := ((r.allowing false).persist_isOk_iff seq t).mp ⟨database, hpersist⟩
    simp [isWritable, Registry.allowing, hdb] at hwritable

/-- A write that succeeds puts one whole row there. -/
theorem Backed.persist_open (seq : UInt64) (t : Task) :
    ∃ db, (r.allowing true).persist seq t = .ok (some db) ∧ db.table.isSome = true ∧
      db.taskIds.Nodup ∧
      ∀ id, db.row? id = if id = t.id then some (.ofTask seq t) else r.row? id := by
  obtain ⟨db, hdb, htable, hkeys⟩ := h
  obtain ⟨rows, hrows⟩ := Option.isSome_iff_exists.mp htable
  obtain ⟨db', hwrite⟩ : ∃ db', ({ db with writable := true } : Database).write (.ofTask seq t) =
      .ok db' := ⟨_, Database.write_eq_ok_iff.mpr ⟨rows, hrows, rfl, rfl⟩⟩
  have hkept : ∀ id, ({ db with writable := true } : Database).row? id = r.row? id := by
    intro id
    simp [row?, hdb, Database.row?, Database.rows]
  have hkeys' : ({ db with writable := true } : Database).taskIds.Nodup := hkeys
  refine ⟨db', by simp [persist, Registry.allowing, hdb, hwrite, Except.map], ?_,
    Database.nodup_write rfl hkeys' hwrite, fun id => ?_⟩
  · obtain ⟨_, -, -, rfl⟩ := Database.write_eq_ok_iff.mp hwrite
    rfl
  · rw [Database.row?_write rfl hwrite, hkept]

end Backed

/-- What an attempt does to a registry. -/
structure Performed (r : Registry) (fails : Bool) (r' : Registry) : Prop where
  backed : r'.Backed
  /-- Tasks that make a difference are written as they are then. -/
  recorded : fails = false → ∀ {id}, r'.find? id ≠ r.find? id →
    ∃ e, r'.find? id = some e ∧ r'.row? id = some e.row
  untouched : ∀ {id}, fails = true ∨ r'.find? id = r.find? id → r'.row? id = r.row? id
  grows : ∀ {id e}, r.find? id = some e → ∃ e', r'.find? id = some e' ∧ e'.seq = e.seq
  /-- A new task is there only with its row. -/
  born : ∀ {id e}, r.find? id = none → r'.find? id = some e → fails = false

/-- What is not there afterwards was not there before. -/
theorem Performed.find?_eq_none {r r' : Registry} {fails : Bool} (h : Performed r fails r')
    {id : String} (hnone : r'.find? id = none) : r.find? id = none := by
  by_contra hfind
  obtain ⟨e, he⟩ := Option.ne_none_iff_exists'.mp hfind
  obtain ⟨e', he', -⟩ := h.grows he
  rw [hnone] at he'
  cases he'

/-- Nothing is written and nothing is changed. -/
theorem Backed.performed_idle {r r' : Registry} (h : r.Backed) (fails : Bool)
    (hdatabase : r'.database = (r.allowing !fails).database)
    (hfind : ∀ id, r'.find? id = r.find? id) : Performed r fails r' where
  backed := by
    obtain ⟨db, hdb, htable⟩ := h.allowing !fails
    exact ⟨db, hdatabase.trans hdb, htable⟩
  recorded _ id hne := absurd (hfind id) hne
  untouched {id} _ := by
    rw [row?, hdatabase]
    exact r.row?_allowing _ id
  grows {id e} he := ⟨e, (hfind id).trans he, rfl⟩
  born {id e} hnone he := by
    rw [hfind, hnone] at he
    cases he

/-- A task gets ahead of its row. -/
theorem Backed.performed_ahead {r r' : Registry} (h : r.Backed) {id : String} {e d : Entry}
    (hdatabase : r'.database = (r.allowing false).database) (he : r.find? id = some e)
    (hfind : ∀ id', r'.find? id' = if id' = id then some d else r.find? id')
    (hseq : d.seq = e.seq) : Performed r true r' where
  backed := by
    obtain ⟨db, hdb, htable⟩ := h.allowing false
    exact ⟨db, hdatabase.trans hdb, htable⟩
  recorded hfails := by cases hfails
  untouched {id'} _ := by
    rw [row?, hdatabase]
    exact r.row?_allowing _ id'
  grows {id' e'} he' := by
    rw [hfind]
    split
    · next hid =>
      obtain rfl := Option.some.inj (he.symm.trans (hid ▸ he'))
      exact ⟨d, rfl, hseq⟩
    · exact ⟨e', he', rfl⟩
  born {id' e'} hnone he' := by
    rw [hfind] at he'
    split at he'
    · next hid =>
      rw [hid, he] at hnone
      cases hnone
    · rw [hnone] at he'
      cases he'

/-- An entry is written and registered. -/
theorem Backed.performed_write {r r' : Registry} (h : r.Backed) {d : Entry}
    (hdatabase : (r.allowing true).persist d.seq d.task = .ok r'.database)
    (hfind : ∀ id, r'.find? id = if id = d.task.id then some d else r.find? id)
    (hnew : r.find? d.task.id ≠ some d)
    (hseq : ∀ {e}, r.find? d.task.id = some e → d.seq = e.seq) : Performed r false r' := by
  obtain ⟨db, hopen, htable, hkeys, hrow⟩ := h.persist_open d.seq d.task
  have hdb : r'.database = some db := Except.ok.inj (hdatabase.symm.trans hopen)
  have hrow' : ∀ id, r'.row? id = if id = d.task.id then some d.row else r.row? id := by
    intro id
    rw [row?, hdb, Option.bind_some, hrow, Entry.row]
  refine ⟨⟨db, hdb, htable, hkeys⟩, fun _ {id} hne => ?_, fun {id} hsame => ?_,
    fun {id e} he => ?_, fun _ _ => rfl⟩
  · have hid : id = d.task.id := by
      by_contra hid
      exact hne ((hfind id).trans (if_neg hid))
    exact ⟨d, (hfind id).trans (if_pos hid), (hrow' id).trans (if_pos hid)⟩
  · have hid : id ≠ d.task.id := by
      rintro rfl
      rw [hfind, if_pos rfl] at hsame
      rcases hsame with hfails | hsame
      · cases hfails
      · exact hnew hsame.symm
    exact (hrow' id).trans (if_neg hid)
  · rw [hfind]
    split
    · next hid => exact ⟨d, rfl, hseq (hid ▸ he)⟩
    · exact ⟨e, he, rfl⟩

theorem Backed.performed_create {r : Registry} (h : r.Backed) (t : Task) (fails : Bool) :
    Performed r fails (r.attempt ⟨.create t, fails⟩) := by
  cases hfind : r.find? t.id with
  | some e =>
    simp only [attempt, perform, Registry.create, find?_allowing, hfind]
    exact h.performed_idle fails rfl fun _ => rfl
  | none =>
    cases fails with
    | true =>
      obtain ⟨error, hclosed⟩ := h.persist_closed r.nextSeq t
      simp only [attempt, perform, Registry.create, find?_allowing, nextSeq_allowing, hfind,
        Bool.not_true, hclosed]
      exact h.performed_idle true rfl fun _ => rfl
    | false =>
      obtain ⟨db, hopen, -⟩ := h.persist_open r.nextSeq t
      have hcreate : (r.allowing true).create t = (.ok t, r.attempt ⟨.create t, false⟩) := by
        simp only [attempt, perform, Registry.create, find?_allowing, nextSeq_allowing, hfind,
          Bool.not_false, hopen]
      have hdatabase : (r.attempt ⟨.create t, false⟩).database = some db := by
        simp only [attempt, perform, Registry.create, find?_allowing, nextSeq_allowing, hfind,
          Bool.not_false, hopen]
      have hafter : ∀ id, (r.attempt ⟨.create t, false⟩).find? id =
          if id = t.id then some { seq := r.nextSeq, task := t } else r.find? id := by
        simpa using find?_create hcreate
      refine h.performed_write (d := { seq := r.nextSeq, task := t }) ?_ hafter ?_ fun {e} he => ?_
      · rw [hdatabase, ← hopen]
      · rw [hfind]
        simp
      · rw [hfind] at he
        cases he

/-- A change that is made, with the table open or closed. -/
theorem attempt_update {r : Registry} {id : String} {m : Task.Amendment} {e : Entry} {t : Task}
    (he : r.find? id = some e) (hchange : m.change e.task = (.ok (), t)) (fails : Bool) :
    r.attempt ⟨.update id m, fails⟩ = (r.allowing !fails).amend e t := by
  have hupdate : (r.allowing !fails).update id m.change = (.ok (), (r.allowing !fails).amend e t) :=
    update_eq_ok_iff.mpr ⟨e, t, he, hchange, rfl⟩
  simp only [attempt, perform, hupdate]

/-- Without a write the table stays as it is. -/
theorem Backed.table_amend_closed {r : Registry} (h : r.Backed) (e : Entry) (t : Task) :
    ((r.allowing false).amend e t).table = r.table := by
  rw [← r.table_allowing false]
  obtain ⟨error, hclosed⟩ := h.persist_closed e.seq t
  unfold amend
  split
  · rfl
  · simp only [store, table, hclosed]

/-- An update goes on in memory whether or not it can be written. -/
theorem Backed.performed_amend {r : Registry} (h : r.Backed) {id : String} {e : Entry} {t : Task}
    (he : r.find? id = some e) (hid : t.id = e.task.id) (fails : Bool) :
    Performed r fails ((r.allowing !fails).amend e t) := by
  have hafter : ∀ id', ((r.allowing !fails).amend e t).find? id' =
      if id' = id then some { e with task := t } else r.find? id' :=
    find?_amend (r := r.allowing !fails) he hid
  obtain rfl := id_of_find? he
  by_cases hsame : t = e.task
  · rw [amend, if_pos hsame]
    exact h.performed_idle fails rfl fun _ => rfl
  cases fails with
  | true =>
    obtain ⟨error, hclosed⟩ := h.persist_closed e.seq t
    refine h.performed_ahead ?_ he hafter rfl
    simp only [amend, hsame, if_false, store, Bool.not_true, hclosed]
  | false =>
    obtain ⟨db, hopen, -⟩ := h.persist_open e.seq t
    refine h.performed_write (d := { e with task := t }) ?_ (hid ▸ hafter) ?_ fun {d} hd => ?_
    · simp only [amend, hsame, if_false, store, Bool.not_false, hopen]
    · rw [hid, he]
      intro heq
      exact hsame (congrArg Entry.task (Option.some.inj heq)).symm
    · rw [hid, he] at hd
      rw [← Option.some.inj hd]

theorem Backed.performed_update {r : Registry} (h : r.Backed) (id : String) (m : Task.Amendment)
    (fails : Bool) : Performed r fails (r.attempt ⟨.update id m, fails⟩) := by
  cases hfind : r.find? id with
  | none =>
    simp only [attempt, perform, update, find?_allowing, hfind]
    exact h.performed_idle fails rfl fun _ => rfl
  | some e =>
    rcases hchange : m.change e.task with ⟨result, t⟩
    cases result with
    | error error =>
      simp only [attempt, perform, update, find?_allowing, hfind, hchange]
      exact h.performed_idle fails rfl fun _ => rfl
    | ok =>
      rw [attempt_update hfind hchange]
      exact h.performed_amend hfind (m.keeps hchange) fails

theorem Backed.performed {r : Registry} (h : r.Backed) (a : Attempt) :
    Performed r a.fails (r.attempt a) := by
  obtain ⟨call, fails⟩ := a
  cases call with
  | create t => exact h.performed_create t fails
  | update id m => exact h.performed_update id m fails

end Registry
end FirewallRollout
