import FirewallRollout.Proofs.Keyed
import FirewallRollout.Registry

/-!
# Looking up tasks

What the registry holds under an identifier after a creation and after a change, and when a creation
succeeds. Nothing else of the registry has to be opened to follow one task through a run.
-/
namespace FirewallRollout.Registry
open Storage (Database)

theorem id_of_find? {r : Registry} {id : String} {e : Entry} (h : r.find? id = some e) :
    e.task.id = id :=
  Keyed.key_of_find? (fun e : Entry => e.task.id) h

theorem get_eq_ok_iff {r : Registry} {id : String} {t : Task} :
    r.get id = .ok t ↔ ∃ e, r.find? id = some e ∧ e.task = t := by
  unfold get
  cases r.find? id <;> simp

/-- Whether a task can be written: there is nothing to write to, or a table that takes rows. -/
def isWritable (r : Registry) : Bool :=
  r.database.all fun db => db.table.isSome && db.writable

theorem persist_isOk_iff (r : Registry) (seq : UInt64) (t : Task) :
    (∃ database, r.persist seq t = .ok database) ↔ r.isWritable = true := by
  cases hdb : r.database with
  | none => simp [persist, isWritable, hdb]
  | some db =>
    cases htable : db.table with
    | none => simp [persist, isWritable, hdb, Database.write, Database.edit, htable, Except.map]
    | some rows =>
      cases hw : db.writable <;>
        simp [persist, isWritable, hdb, Database.write, Database.edit, htable, Except.map, hw]

/-- A write changes neither whether there is a table nor whether it takes rows. -/
theorem writable_of_persist {r : Registry} {seq : UInt64} {t : Task} {database : Option Database}
    (h : r.persist seq t = .ok database) :
    (database.all fun db => db.table.isSome && db.writable) = r.isWritable := by
  cases hdb : r.database with
  | none => simp_all [persist, isWritable]
  | some db =>
    cases htable : db.table with
    | none => simp [persist, hdb, Database.write, Database.edit, htable, Except.map] at h
    | some rows =>
      cases hw : db.writable with
      | false => simp [persist, hdb, Database.write, Database.edit, htable, Except.map, hw] at h
      | true =>
        simp only [persist, hdb, Database.write, Database.edit, htable, Except.map, hw, if_true,
          Except.ok.injEq] at h
        subst h
        simp [isWritable, hdb, htable, hw]

/-- A creation that is refused only uses up a place in the order. -/
theorem create_error {r r' : Registry} {t : Task} {e : Error} (h : r.create t = (.error e, r')) :
    r' = { r with nextSeq := r.nextSeq + 1 } := by
  unfold create at h
  split at h
  · simp_all
  · split at h <;> simp_all

/-- A creation is never refused as a conflict. -/
theorem create_ne_conflict (r : Registry) (t : Task) (message : String) :
    (r.create t).1 ≠ .error (.conflict message) := by
  unfold create
  split
  · simp
  · split
    · next e hwrite =>
      simp only [ne_eq, Except.error.injEq]
      rintro rfl
      cases hdb : r.database with
      | none => simp [persist, hdb] at hwrite
      | some db =>
        cases htable : db.table <;> cases hw : db.writable <;>
          simp [persist, hdb, Database.write, Database.edit, htable, hw, Except.map] at hwrite
    · simp

/-- A creation that succeeds: the identifier was free, and the task comes last. -/
theorem create_ok {r r' : Registry} {t u : Task} (h : r.create t = (.ok u, r')) :
    u = t ∧ r.find? t.id = none ∧ r'.isWritable = r.isWritable ∧
      r'.entries = r.entries ++ [{ seq := r.nextSeq, task := t }] := by
  unfold create at h
  split at h
  · simp at h
  · next hfree =>
    split at h
    · simp at h
    · next database hwrite =>
      simp only [Prod.mk.injEq, Except.ok.injEq] at h
      obtain ⟨rfl, rfl⟩ := h
      exact ⟨rfl, hfree, writable_of_persist hwrite, rfl⟩

/-- A creation succeeds exactly under a free identifier and when it can be written. -/
theorem create_isOk_iff (r : Registry) (t : Task) :
    (∃ r', r.create t = (.ok t, r')) ↔ r.find? t.id = none ∧ r.isWritable = true := by
  rw [← r.persist_isOk_iff r.nextSeq t]
  unfold create
  cases r.find? t.id with
  | some e => simp
  | none => cases r.persist r.nextSeq t <;> simp

/-- There is always an identifier left. -/
theorem exists_free (r : Registry) : ∃ id, r.find? id = none := by
  -- a text that is longer than every identifier in use
  let lengths := r.entries.map fun e => e.task.id.length
  refine ⟨.ofList (List.replicate (lengths.max?.getD 0 + 1) 'x'), List.find?_eq_none.mpr ?_⟩
  intro e he heq
  have hle : e.task.id.length ≤ lengths.max?.getD 0 :=
    List.le_max?_getD_of_mem (List.mem_map_of_mem he)
  have hlength := congrArg String.length (beq_iff_eq.mp heq)
  simp only [String.length_ofList, List.length_replicate] at hlength
  omega

theorem find?_create {r r' : Registry} {t u : Task} (h : r.create t = (.ok u, r')) (id : String) :
    r'.find? id = if id = t.id then some { seq := r.nextSeq, task := t } else r.find? id := by
  obtain ⟨rfl, hfree, -, hentries⟩ := create_ok h
  unfold find? at hfree ⊢
  rw [hentries, List.find?_append]
  by_cases hid : id = u.id
  · subst hid
    simp [hfree]
  · simp [hid, Ne.symm hid]

theorem find?_create_of_some {r r' : Registry} {t u : Task} (h : r.create t = (.ok u, r'))
    {id : String} {e : Entry} (he : r.find? id = some e) : r'.find? id = some e := by
  rw [find?_create h, if_neg, he]
  rintro rfl
  rw [(create_ok h).2.1] at he
  cases he

/-- Changing one task leaves what is found under every other identifier. -/
theorem find?_amend {r : Registry} {id : String} {e : Entry} {t : Task} (he : r.find? id = some e)
    (ht : t.id = e.task.id) (id' : String) :
    (r.amend e t).find? id' = if id' = id then some { e with task := t } else r.find? id' := by
  obtain rfl := id_of_find? he
  unfold amend
  split
  · next h =>
    subst h
    split
    · next hid => rw [hid, he]
    · rfl
  · -- every entry under the identifier is rewritten, so the key has to stay for each of them
    have hstore : (r.store e t).entries = r.entries.map fun x =>
        if x.task.id == e.task.id then
          (if x.task.id = e.task.id then { x with task := t } else x) else x := by
      apply List.map_congr_left
      intro x _
      by_cases hx : x.task.id = e.task.id <;> simp [hx]
    unfold find? at he ⊢
    rw [hstore, Keyed.find?_map_at (fun x : Entry => x.task.id) r.entries
      (fun x => if x.task.id = e.task.id then { x with task := t } else x)
      (by intro x; split <;> simp_all), he]
    simp

/-- A change registers nothing new. -/
theorem find?_of_amend {r : Registry} {id id' : String} {e : Entry} {t : Task}
    (he : r.find? id = some e) (h : (r.amend e t).find? id' ≠ none) (ht : t.id = e.task.id) :
    r.find? id' ≠ none := by
  rw [find?_amend he ht] at h
  split at h
  · next hid => simp [hid, he]
  · exact h

theorem find?_self {r : Registry} {id : String} {e : Entry} (he : r.find? id = some e)
    (id' : String) :
    r.find? id' = if id' = id then some { e with task := e.task } else r.find? id' := by
  split
  · next h => rw [h, he]
  · rfl

/-- A change succeeds exactly when the task is there and takes it. -/
theorem update_eq_ok_iff {α : Type} {r r' : Registry} {id : String}
    {change : Task → Except Error α × Task} {a : α} :
    r.update id change = (.ok a, r') ↔
      ∃ e t, r.find? id = some e ∧ change e.task = (.ok a, t) ∧ r' = r.amend e t := by
  unfold update
  cases r.find? id with
  | none => simp
  | some e =>
    rcases hc : change e.task with ⟨result, t⟩
    cases result <;> simp [hc, eq_comm, and_assoc]

/-- Whatever was done to the copy, a change that is refused leaves everything as it is. -/
theorem update_error {α : Type} {r : Registry} {id : String}
    {change : Task → Except Error α × Task} {error : Error}
    (h : (r.update id change).1 = .error error) : (r.update id change).2 = r := by
  unfold update at h ⊢
  cases hfind : r.find? id with
  | none => rfl
  | some e =>
    rcases hc : change e.task with ⟨result, t⟩
    cases result with
    | error first => simp only [hc]
    | ok a => simp [hfind, hc] at h

@[simp] theorem isWritable_amend (r : Registry) (e : Entry) (t : Task) :
    (r.amend e t).isWritable = r.isWritable := by
  unfold amend
  split
  · rfl
  · unfold store
    split
    · next h => exact writable_of_persist h
    · rfl

end FirewallRollout.Registry
