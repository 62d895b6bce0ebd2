import FirewallRollout.Proofs.Registry.Lookup
import FirewallRollout.Proofs.Registry.Reopen
import Mathlib.Logic.Relation

/-!
# A registry and its database over a run

A registry that is kept in a database of its own is created, changed and opened again. Every write
succeeds then, and at each moment the rows are those of the registered tasks.
-/
namespace FirewallRollout

namespace Task

/-- One operation takes a task to another. -/
def Operated (t u : Task) : Prop := ∃ s reply, t.step s = (.ok reply, u)

/-- A change of tasks that is made of the operations on them; it may look at the task and choose. -/
structure Mutation where
  change : Task → Except Error Unit × Task
  built : ∀ {t u}, change t = (.ok (), u) → Relation.ReflTransGen Operated t u

theorem steps_cons_of_ok {t u : Task} {s : Step} {steps : List Step} {reply : Reply}
    (h : t.step s = (.ok reply, u)) :
    t.steps (s :: steps) = ((u.steps steps).1.map (reply :: ·), (u.steps steps).2) := by
  simp only [Task.steps, h]

theorem steps_cons_of_error {t u : Task} {s : Step} {steps : List Step} {refusal : Refusal}
    (h : t.step s = (.error refusal, u)) : t.steps (s :: steps) = (.error refusal, u) := by
  simp only [Task.steps, h]

theorem operated_of_steps {t u : Task} {steps : List Step} {replies : List Reply}
    (h : t.steps steps = (.ok replies, u)) : Relation.ReflTransGen Operated t u := by
  induction steps generalizing t replies with
  | nil =>
    obtain ⟨-, rfl⟩ := Prod.mk.inj h
    exact .refl
  | cons s steps ih =>
    rcases hstep : t.step s with ⟨result, v⟩
    cases result with
    | error refusal => simp [steps_cons_of_error hstep] at h
    | ok reply =>
      rw [steps_cons_of_ok hstep] at h
      obtain ⟨hreplies, hlast⟩ := Prod.mk.inj h
      obtain ⟨rest, hrest, -⟩ := map_ok hreplies
      exact .head ⟨s, reply, hstep⟩ (ih (Prod.ext hrest hlast))

/-- Operations one after the other, all of them or none. -/
def Mutation.ofSteps (steps : List Step) : Mutation where
  change t := reported ((t.steps steps).1.map fun _ => (), (t.steps steps).2)
  built {t u} h := by
    obtain ⟨hreplies, rfl⟩ := Prod.mk.inj (reported_eq_ok_iff.mp h)
    obtain ⟨replies, hreplies, -⟩ := map_ok hreplies
    exact operated_of_steps (Prod.ext hreplies rfl)

theorem Mutation.keeps (m : Mutation) {t u : Task} (h : m.change t = (.ok (), u)) :
    t.SameRebuild u ∧ (t.processed ≤ t.total → u.processed ≤ u.total) := by
  have hbuilt := m.built h
  clear h
  induction hbuilt with
  | refl => exact ⟨.refl t, fun hle => hle⟩
  | tail _ hlast ih =>
    obtain ⟨s, reply, hstep⟩ := hlast
    obtain ⟨hsame, hcounts⟩ := step_ok hstep
    exact ⟨ih.1.trans hsame, fun hle => hcounts (ih.2 hle)⟩

end Task

namespace Registry

/-- What happens to a registry. A new task has made no more progress than it has rules. -/
inductive Event where
  | create (t : Task) (counts : t.processed ≤ t.total)
  | update (id : String) (m : Task.Mutation)
  | reopen (now : Int64)

/-- Close a registry and open what it leaves in its database. -/
def reopen (r : Registry) (now : Int64) : Except Error (Registry × Nat) :=
  openDatabase (r.database.getD {}) now

/-- The registry after an event. -/
def handle (r : Registry) : Event → Registry
  | .create t _ => (r.create t).2
  | .update id m => (r.update id m.change).2
  | .reopen now =>
    match r.reopen now with
    | .ok (r', _) => r'
    | .error _ => r

def run (r : Registry) (events : List Event) : Registry := events.foldl handle r

/-- The registry of a database that nobody has used before. -/
def opened (now : Int64) : Registry := handle { database := some {} } (.reopen now)

def Event.isCreation : Event → Bool
  | .create .. => true
  | _ => false

/-- How often a creation is tried. -/
def creations (events : List Event) : Nat := events.countP Event.isCreation

/-- Each task's row is in the database, and there are no other rows. A row that no start has written
back still has its first creation sequence, so that sequences are compared as they are read. -/
structure Stored (r : Registry) : Prop where
  rows : ∃ kept, r.database = some (tableOf kept) ∧
    (kept.map Entry.reread).Perm (r.entries.map Entry.reread)
  ids : (r.entries.map (·.task.id)).Nodup
  counts : ∀ e ∈ r.entries, e.task.processed ≤ e.task.total

theorem rewrite_perm {kept kept' : List Entry}
    (h : (kept.map Entry.reread).Perm (kept'.map Entry.reread)) (e : Entry) :
    ((rewrite kept e).map Entry.reread).Perm ((rewrite kept' e).map Entry.reread) := by
  have hfilter : ∀ l : List Entry, (l.filter (·.task.id != e.task.id)).map Entry.reread =
      (l.map Entry.reread).filter (·.task.id != e.task.id) := by
    intro l
    simp [List.filter_map, Function.comp_def]
  simp only [rewrite, List.map_append, hfilter]
  exact (h.filter _).append_right _

theorem persist_tableOf {r : Registry} {kept : List Entry}
    (h : r.database = some (tableOf kept)) (e : Entry) :
    r.persist e.seq e.task = .ok (some (tableOf (rewrite kept e))) := by
  simp only [persist, h]
  rw [← Entry.row, write_tableOf]
  rfl

theorem Stored.persist {r : Registry} (h : r.Stored) (e : Entry) :
    ∃ database, r.persist e.seq e.task = .ok database := by
  obtain ⟨kept, hkept, -⟩ := h.rows
  exact ⟨_, persist_tableOf hkept e⟩

/-- One entry is written, in the database as in the registry. -/
theorem Stored.of_rewrite {r r' : Registry} (h : r.Stored) {e : Entry}
    (hcounts : e.task.processed ≤ e.task.total)
    (hwritten : r.persist e.seq e.task = .ok r'.database)
    (hentries : r'.entries.Perm (rewrite r.entries e)) : r'.Stored where
  rows := by
    obtain ⟨kept, hkept, hperm⟩ := h.rows
    refine ⟨rewrite kept e, ?_, (rewrite_perm hperm e).trans (hentries.map Entry.reread).symm⟩
    exact Except.ok.inj (hwritten.symm.trans (persist_tableOf hkept e))
  ids := by
    rw [(hentries.map _).nodup_iff, rewrite, List.map_append, List.nodup_append]
    refine ⟨h.ids.sublist (List.filter_sublist.map _), by simp, ?_⟩
    intro id hid id' hid'
    obtain ⟨d, hd, rfl⟩ := List.mem_map.mp hid
    obtain rfl := List.mem_singleton.mp hid'
    simpa using (List.mem_filter.mp hd).2
  counts d hd := by
    rcases List.mem_append.mp (hentries.mem_iff.mp hd) with hd | hd
    · exact h.counts d (List.mem_filter.mp hd).1
    · obtain rfl := List.mem_singleton.mp hd
      exact hcounts

theorem Stored.create {r : Registry} (h : r.Stored) {t : Task} (hcounts : t.processed ≤ t.total) :
    (r.create t).2.Stored := by
  obtain ⟨database, hwrite⟩ := h.persist { seq := r.nextSeq, task := t }
  cases hfind : r.find? t.id with
  | some e =>
    simp only [Registry.create, hfind]
    exact ⟨h.rows, h.ids, h.counts⟩
  | none =>
    have hfree : r.entries.filter (·.task.id != t.id) = r.entries := by
      rw [List.filter_eq_self]
      intro e he
      simpa using List.find?_eq_none.mp hfind e he
    simp only [Registry.create, hfind, hwrite]
    apply h.of_rewrite (e := { seq := r.nextSeq, task := t }) hcounts hwrite
    simp [rewrite, hfree]

theorem Stored.amend {r : Registry} (h : r.Stored) {id : String} {e : Entry} {t : Task}
    (he : r.find? id = some e) (hid : t.id = e.task.id) (hcounts : t.processed ≤ t.total) :
    (r.amend e t).Stored := by
  obtain ⟨database, hwrite⟩ := h.persist { e with task := t }
  unfold Registry.amend
  split
  · exact h
  · have hperm := Keyed.perm_map_at (fun x : Entry => x.task.id) h.ids
      (List.mem_of_find?_eq_some he) (fun x => { x with task := t })
    simp only [store, hwrite]
    apply h.of_rewrite (e := { e with task := t }) hcounts hwrite
    rw [rewrite, hid]
    exact hperm.symm

/-- What is stored can be opened again. -/
theorem Stored.reopen {r : Registry} (h : r.Stored) (now : Int64) :
    ∃ kept, r.reopen now = .ok (reopened now kept, r.activeCount) ∧ (kept.map (·.task.id)).Nodup ∧
      (kept.map Entry.reread).Perm (r.entries.map Entry.reread) := by
  obtain ⟨kept, hkept, hperm⟩ := h.rows
  have hnodup : (kept.map (·.task.id)).Nodup := by
    have hids : (kept.map (·.task.id)).Perm (r.entries.map (·.task.id)) := by
      simpa [Function.comp_def] using hperm.map (·.task.id)
    exact hids.nodup_iff.mpr h.ids
  have hcount : kept.countP Entry.isActive = r.activeCount := by
    have hcountP := hperm.countP_eq Entry.isActive
    rw [List.countP_map, List.countP_map] at hcountP
    exact hcountP
  refine ⟨kept, ?_, hnodup, hperm⟩
  -- the count is of the entries that were active, in whatever order their rows are
  rw [Registry.reopen, hkept, Option.getD_some, openDatabase_tableOf hnodup, hcount]

/-- A new start finds every task, with its place in the order as the database has it. -/
theorem entries_reopened_perm {r : Registry} {kept : List Entry}
    (h : (kept.map Entry.reread).Perm (r.entries.map Entry.reread)) (now : Int64) :
    (reopened now kept).entries.Perm (r.entries.map (Entry.revive now)) := by
  simpa [reopened, Function.comp_def] using h.map (Entry.revive now)

theorem Stored.reopened {r : Registry} (h : r.Stored) {kept : List Entry}
    (hperm : (kept.map Entry.reread).Perm (r.entries.map Entry.reread)) (now : Int64) :
    (Registry.reopened now kept).Stored where
  rows := by
    refine ⟨settled now kept, rfl, ?_⟩
    simpa [Registry.reopened, Function.comp_def] using settled_perm now kept
  ids := by
    rw [((entries_reopened_perm hperm now).map _).nodup_iff]
    simpa [Function.comp_def] using h.ids
  counts e he := by
    obtain ⟨d, hd, rfl⟩ := List.mem_map.mp ((entries_reopened_perm hperm now).mem_iff.mp he)
    have htotal : (restore now d.task).1.total = d.task.total :=
      (restore_sameRebuild now d.task).2.2.1
    simpa [Entry.revive, restore_processed, htotal] using h.counts d hd

theorem stored_opened (now : Int64) : (opened now).Stored where
  rows := ⟨[], rfl, .nil⟩
  ids := List.nodup_nil
  counts := by
    intro e he
    cases he

/-- A change that is made: the task was there, and its entry is amended. -/
theorem handle_update (r : Registry) (id : String) (m : Task.Mutation) :
    r.handle (.update id m) = r ∨ ∃ e t, r.find? id = some e ∧ m.change e.task = (.ok (), t) ∧
      r.handle (.update id m) = r.amend e t := by
  cases hresult : (r.update id m.change).1 with
  | error error => exact .inl (update_error hresult)
  | ok =>
    obtain ⟨e, t, he, hchange, hafter⟩ := update_eq_ok_iff.mp (Prod.ext hresult rfl)
    exact .inr ⟨e, t, he, hchange, hafter⟩

theorem Stored.handle {r : Registry} (h : r.Stored) (event : Event) : (r.handle event).Stored := by
  cases event with
  | create t counts => exact h.create counts
  | update id m =>
    rcases handle_update r id m with hsame | ⟨e, t, he, hchange, hafter⟩
    · rwa [hsame]
    · obtain ⟨hrebuild, hcounts⟩ := m.keeps hchange
      rw [hafter]
      exact h.amend he hrebuild.1 (hcounts (h.counts e (List.mem_of_find?_eq_some he)))
  | reopen now =>
    obtain ⟨kept, hreopen, -, hperm⟩ := h.reopen now
    rw [Registry.handle, hreopen]
    exact h.reopened hperm now

theorem Stored.run {r : Registry} (h : r.Stored) (events : List Event) : (r.run events).Stored := by
  induction events generalizing r with
  | nil => exact h
  | cons event events ih => exact ih (h.handle event)

end Registry
end FirewallRollout
