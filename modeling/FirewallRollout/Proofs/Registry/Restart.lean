import FirewallRollout.Proofs.Registry.Listing
import FirewallRollout.Proofs.Task.Counters

/-!
# A new start of the service

Whatever happened to a registry that is kept in a database, it can be opened again. Ended tasks come
back as they were and the others as interrupted, in the order in which they were listed before, and
the database then agrees with the registry, so that one more start changes nothing.
-/
namespace FirewallRollout

namespace Task

/-- Every rule of an abandoned task was either applied or failed. -/
theorem toNat_failed_abandon {t : Task} (h : t.processed ≤ t.total) (message : String)
    (now : Int64) :
    (t.abandon message now).failed.toNat + t.processed.toNat = t.total.toNat := by
  have hcounts : t.processed.toNat + (t.abandon message now).failed.toNat = t.total.toNat :=
    (abandon_counts (UInt32.le_iff_toNat_le.mp h)).2
  omega

theorem abort_of_active {t : Task} (h : t.isTerminal = false) (message : String) (now : Int64) :
    t.abort message now = (.ok (), t.abandon message now) :=
  unlessEnded_of_active h

end Task

namespace Registry
open Storage (seqRoom)

theorem get_of_mem {r : Registry} (h : (r.entries.map (·.task.id)).Nodup) {e : Entry}
    (he : e ∈ r.entries) : r.get e.task.id = .ok e.task :=
  get_eq_ok_iff.mpr ⟨e, Keyed.find?_of_mem (fun e : Entry => e.task.id) h he, rfl⟩

theorem get_perm {r r' : Registry} (hperm : r.entries.Perm r'.entries)
    (h : (r.entries.map (·.task.id)).Nodup) (id : String) : r.get id = r'.get id := by
  have hfind : r.find? id = r'.find? id :=
    Keyed.find?_perm (fun e : Entry => e.task.id) hperm h id
  rw [get, get, hfind]

/-- What is opened again after a registry was closed. -/
structure Restarted (now : Int64) (old new : Registry) : Prop where
  ids : (new.tasks.map Task.id).Perm (old.tasks.map Task.id)
  ended : ∀ t ∈ old.tasks, t.isTerminal = true → new.get t.id = .ok t
  interrupted : ∀ t ∈ old.tasks, t.isTerminal = false →
    ∃ u, t.abort interruptedMessage now = (.ok (), u) ∧ new.get t.id = .ok u ∧
      u.processed = t.processed ∧ u.failed.toNat + t.processed.toNat = t.total.toNat
  /-- The rows are read as the tasks. -/
  rows : ∃ rows read, new.database = some { table := some rows } ∧
    rows.mapM Storage.Row.read = .ok read ∧ read.Perm (new.entries.map fun e => (e.seq, e.task))
  /-- One more start ends no task, and it changes no task and no row. -/
  again : ∀ later, ∃ newer, new.reopen later = .ok (newer, 0) ∧ newer.database = new.database ∧
    newer.entries.Perm new.entries ∧ ∀ id, newer.get id = new.get id

section Reopened
variable {r : Registry} {kept : List Entry} (h : r.Stored)
  (hperm : (kept.map Entry.reread).Perm (r.entries.map Entry.reread)) (now : Int64)
include h hperm

theorem get_reopened {t : Task} (ht : t ∈ r.tasks) :
    (reopened now kept).get t.id = .ok (restore now t).1 := by
  obtain ⟨e, he, rfl⟩ := List.mem_map.mp ht
  have hmem : e.revive now ∈ (reopened now kept).entries :=
    (entries_reopened_perm hperm now).mem_iff.mpr (List.mem_map_of_mem he)
  have hget := get_of_mem (h.reopened hperm now).ids hmem
  rwa [Entry.revive_id] at hget

theorem reopen_reopened (later : Int64) :
    (reopened now kept).reopen later = .ok (reopened later (settled now kept), 0) := by
  have hids : ((settled now kept).map (·.task.id)).Nodup := by
    have hstored := (h.reopened hperm now).ids
    rw [(settled_ids_perm now kept).nodup_iff]
    simpa [reopened, Function.comp_def] using hstored
  have hcount : (settled now kept).countP Entry.isActive = 0 := by
    rw [List.countP_eq_zero]
    intro e he
    simp [isActive_of_mem_settled now kept he]
  rw [reopen, reopened, Option.getD_some, openDatabase_tableOf hids, hcount]

theorem Stored.restarted : Restarted now r (Registry.reopened now kept) where
  ids := by
    have hids := (entries_reopened_perm hperm now).map (·.task.id)
    simpa [tasks, Function.comp_def] using hids
  ended t ht hended := by
    rw [get_reopened h hperm now ht, restore_of_isTerminal hended]
  interrupted t ht hactive := by
    refine ⟨_, Task.abort_of_active hactive _ _, ?_, rfl, Task.toNat_failed_abandon ?_ _ _⟩
    · rw [get_reopened h hperm now ht, restore_of_active hactive]
    · obtain ⟨e, he, rfl⟩ := List.mem_map.mp ht
      exact h.counts e he
  rows := by
    refine ⟨_, _, rfl, mapM_map_ok (fun e : Entry => Storage.Row.read_ofTask e.seq e.task) _, ?_⟩
    have hread := (settled_perm now kept).map fun e => (e.seq, e.task)
    simpa [Registry.reopened, Entry.reread, Function.comp_def] using hread
  again later := by
    have hentries : (Registry.reopened later (settled now kept)).entries.Perm
        (Registry.reopened now kept).entries := by
      rw [Registry.reopened, map_revive_settled]
      exact settled_perm now kept
    have hids := (hentries.map (·.task.id)).nodup_iff.mpr (h.reopened hperm now).ids
    refine ⟨_, reopen_reopened h hperm now later, ?_, hentries, get_perm hentries hids⟩
    simp [Registry.reopened, settled_settled]

end Reopened

/-- A registry that is closed at any moment can be opened again, and it is as it was except for the
tasks that had not ended. The order of listings is kept as long as the column of sequences has room:
every creation that is tried takes a place, and the column gives back places of 63 bits. -/
theorem restarted_run (first : Int64) (before : List Event) (now : Int64) :
    ∃ r, ((opened first).run before).reopen now =
        .ok (r, ((opened first).run before).activeCount) ∧
      Restarted now ((opened first).run before) r ∧
      (creations before ≤ seqRoom → SameListings ((opened first).run before) r) ∧
      ∀ after, creations before + creations after ≤ seqRoom → NewFirst r (r.run after) := by
  have hstored := (stored_opened first).run before
  obtain ⟨kept, hreopen, -, hperm⟩ := hstored.reopen now
  refine ⟨_, hreopen, hstored.restarted hperm now, ?_, ?_⟩
  · intro hroom
    obtain ⟨hn, hle⟩ := numbered_run first hroom
    exact sameListings_reopened hperm now hn (hle.trans hroom)
  · intro after hroom
    have hbefore : creations before ≤ seqRoom := by omega
    obtain ⟨hn, hle⟩ := numbered_run first hbefore
    obtain ⟨hn', hle'⟩ := hn.reopened (hle.trans hbefore) hperm now
    apply newFirst_run (hstored.reopened hperm now) hn'
    rw [UInt64.le_iff_toNat_le] at hle'
    omega

section Example

def endedTask : Task :=
  { Task.create "a" "S1" 3 false 10 with
    status := .success, processed := 3, completedAt := some 12 }

def runningTask : Task :=
  { Task.create "b" "S2" 3 false 20 with status := .running, processed := 1 }

def interruptedTask : Task :=
  { runningTask with
    status := .failed, failed := 2, errorMessage := some interruptedMessage,
    completedAt := some 30 }

/-- Two rebuilds, of which one has ended. -/
def twoRebuilds : List Event :=
  [.create (Task.create "a" "S1" 3 false 10) (by decide),
   .update "a" (.ofSteps [.start, .progress 3, .succeed 12]),
   .create (Task.create "b" "S2" 3 false 20) (by decide),
   .update "b" (.ofSteps [.start, .progress 1])]

def newTask : Task := Task.create "c" "S3" 3 false 20

/-- Both tasks are listed as before, and a task that is created then comes before the one that
started at the same moment. -/
theorem restarted_run_twoRebuilds :
    ∃ r : Registry, ((opened 0).run twoRebuilds).reopen 30 = .ok (r, 1) ∧
      r.get "a" = .ok endedTask ∧ r.get "b" = .ok interruptedTask ∧
      (r.list {} 0 0).1.map Task.id = ["b", "a"] ∧
      [newTask, interruptedTask].Sublist
        ((r.run [.create newTask (by decide)]).matching {}) := by
  obtain ⟨r, hopen, hrestarted, hlistings, hnew⟩ := restarted_run 0 twoRebuilds 30
  have hcount : ((opened 0).run twoRebuilds).activeCount = 1 := by decide +kernel
  have hentries : ((opened 0).run twoRebuilds).entries =
      [{ seq := 0, task := endedTask }, { seq := 1, task := runningTask }] := by decide +kernel
  have htasks : ((opened 0).run twoRebuilds).tasks = [endedTask, runningTask] := by
    rw [tasks, hentries]
    rfl
  have hlisted : (((opened 0).run twoRebuilds).list {} 0 0).1.map Task.id = ["b", "a"] := by
    have hlater : Entry.newerFirst { seq := 0, task := endedTask } { seq := 1, task := runningTask } =
        false := by decide +kernel
    have hmatching : ((opened 0).run twoRebuilds).matching {} = [runningTask, endedTask] := by
      simp [matching, hentries, Filter.accepts, List.mergeSort, hlater]
    rw [list, hmatching]
    rfl
  refine ⟨r, hcount ▸ hopen, ?_, ?_, ?_, ?_⟩
  · exact hrestarted.ended endedTask (htasks ▸ List.mem_cons_self) rfl
  · obtain ⟨u, habort, hget, -⟩ :=
      hrestarted.interrupted runningTask (htasks ▸ .tail _ (.head _)) rfl
    rw [← (Prod.mk.inj habort).2] at hget
    exact hget
  · exact (hlistings (by decide) none 0 0).1.trans hlisted
  · have hr : r = ((opened 0).run twoRebuilds).handle (.reopen 30) := by
      rw [handle, hopen]
    have hfirst := hnew [.create newTask (by decide)] (by decide)
    subst hr
    refine hfirst newTask ?_ interruptedTask ?_ ?_ ?_ ?_ {} ?_ ?_ <;> decide +kernel

end Example

end Registry
end FirewallRollout
