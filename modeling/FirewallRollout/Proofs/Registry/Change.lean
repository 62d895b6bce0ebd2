import FirewallRollout.Proofs.Registry.Order
import FirewallRollout.Proofs.Registry.WriteThrough
import FirewallRollout.Proofs.Task.Driven

/-!
# Changes as a whole

A change of a task by several operations is made as a whole or not at all, in memory and in the
table. It is worked out on a copy, so that operations before a refused one leave nothing behind.
-/
namespace FirewallRollout
open Storage (Database Row)

namespace Task
variable {t u : Task} {s : Step} {steps : List Step}

/-- What operations answer that are tried one after the other. -/
def answers (t : Task) : List Step → List (Except Refusal Reply)
  | [] => []
  | s :: steps => (t.step s).1 :: (t.step s).2.answers steps

theorem answers_cons {result : Except Refusal Reply} (h : t.step s = (result, u)) :
    t.answers (s :: steps) = result :: u.answers steps := by
  rw [answers, h]

/-- Operations none of which is refused are all made. -/
theorem steps_of_answers_ok {replies : List Reply} (h : t.answers steps = replies.map .ok) :
    t.steps steps = (.ok replies, t.drive steps) := by
  induction steps generalizing t replies with
  | nil =>
    obtain rfl : replies = [] := by simpa [answers, eq_comm] using h
    rfl
  | cons s steps ih =>
    rcases hstep : t.step s with ⟨result, u⟩
    rw [answers_cons hstep] at h
    cases replies with
    | nil => cases h
    | cons reply replies =>
      obtain ⟨rfl, hrest⟩ := List.cons.inj h
      rw [steps_cons_of_ok hstep, ih hrest, drive_cons, hstep]
      rfl

/-- The first operation that is refused stops all of them, when those before it have been made. -/
theorem steps_of_answers_error {replies : List Reply} {refusal : Refusal}
    {rest : List (Except Refusal Reply)}
    (h : t.answers steps = replies.map .ok ++ .error refusal :: rest) :
    t.steps steps = (.error refusal, t.drive (steps.take replies.length)) := by
  induction steps generalizing t replies with
  | nil => simp [answers] at h
  | cons s steps ih =>
    rcases hstep : t.step s with ⟨result, u⟩
    rw [answers_cons hstep] at h
    cases replies with
    | nil =>
      obtain ⟨rfl, -⟩ := List.cons.inj h
      have hkept : u = t := by simpa [hstep] using step_error (congrArg Prod.fst hstep)
      rw [steps_cons_of_error hstep, hkept]
      rfl
    | cons reply replies =>
      obtain ⟨rfl, hrest⟩ := List.cons.inj h
      rw [steps_cons_of_ok hstep, ih hrest, List.length_cons, List.take_succ_cons, drive_cons,
        hstep]
      rfl

theorem drive_id (t : Task) (steps : List Step) : (t.drive steps).id = t.id :=
  drive_induction (P := fun u => u.id = t.id)
    (fun hid hmove => hmove.sameRebuild.1.trans hid) rfl steps

end Task

namespace Registry
variable {r r' : Registry} {e : Entry} {t : Task}

/-- Whether there is a table that takes writes. -/
def takesWrites (r : Registry) : Bool := r.database.any fun db => db.table.isSome && db.writable

/-- The rows under the identifier of a task. -/
def rowsUnder (r : Registry) (id : String) : List Row :=
  (r.table.getD []).filter (·.taskId == .text id)

/-- The table without the rows under the identifier of a task. -/
def tableElsewhere (r : Registry) (id : String) : Option (List Row) :=
  r.table.map (·.filter (·.taskId != .text id))

/-- One task and its row are replaced, and nothing else is touched. -/
structure Replaced (r : Registry) (e : Entry) (t : Task) (r' : Registry) : Prop where
  task : r'.find? e.task.id = some { e with task := t }
  others : r'.entries.filter (·.task.id != e.task.id) = r.entries.filter (·.task.id != e.task.id)
  places : r'.places = r.places
  next : r'.nextSeq = r.nextSeq
  elsewhere : r'.tableElsewhere e.task.id = r.tableElsewhere e.task.id
  backing : r'.database.map Database.writable = r.database.map Database.writable
  /-- A difference is written as a whole, where there is a table that takes it. -/
  row : r'.rowsUnder e.task.id =
    if t ≠ e.task ∧ r.takesWrites = true then [.ofTask e.seq t] else r.rowsUnder e.task.id
  inStep : r.takesWrites = true → r.rowsUnder e.task.id = [e.row] →
    r'.rowsUnder e.task.id = [.ofTask e.seq t]

theorem others_amend (hid : t.id = e.task.id) :
    (r.amend e t).entries.filter (·.task.id != e.task.id) =
      r.entries.filter (·.task.id != e.task.id) := by
  unfold amend
  split
  · rfl
  · -- an entry that is changed is left out before and after
    rw [store, List.filter_map]
    have hkept : ((fun x : Entry => x.task.id != e.task.id) ∘ fun x =>
        if x.task.id == e.task.id then { x with task := t } else x) =
        fun x => x.task.id != e.task.id := by
      funext x
      by_cases hx : x.task.id = e.task.id <;> simp [hx, hid]
    rw [hkept]
    conv_rhs => rw [← List.map_id (r.entries.filter _)]
    apply List.map_congr_left
    intro x hx
    have hne := (List.mem_filter.mp hx).2
    simp only [bne_iff_ne] at hne
    simp [hne]

/-- Where there is a table that takes writes, a task that is written takes the place of its old
row. -/
theorem database_store (r : Registry) (e : Entry) (t : Task) :
    (r.store e t).database = r.database.map fun db =>
      if db.table.isSome = true ∧ db.writable = true then
        { db with table := db.table.map fun rows =>
            rows.filter (·.taskId != .text t.id) ++ [.ofTask e.seq t] }
      else db := by
  cases hdb : r.database with
  | none => simp [store, persist, hdb]
  | some db =>
    cases htable : db.table <;> cases hwrites : db.writable <;>
      simp [store, persist, hdb, Database.write, Database.edit, htable, hwrites, Except.map,
        Row.ofTask]

theorem takesWrites_of_database {db : Database} (hdb : r.database = some db) :
    r.takesWrites = true ↔ db.table.isSome = true ∧ db.writable = true := by
  simp [takesWrites, hdb]

theorem database_store_of_closed (h : r.takesWrites = false) :
    (r.store e t).database = r.database := by
  cases hdb : r.database with
  | none => simp [database_store, hdb]
  | some db =>
    have hclosed := (takesWrites_of_database hdb).not.mp (by simp [h])
    rw [database_store, hdb, Option.map_some, if_neg hclosed]

theorem writable_store :
    (r.store e t).database.map Database.writable = r.database.map Database.writable := by
  rw [database_store, Option.map_map]
  congr 1
  funext db
  simp only [Function.comp_apply]
  split <;> rfl

theorem table_store (h : r.takesWrites = true) :
    ∃ rows, r.table = some rows ∧ (r.store e t).table =
      some (rows.filter (·.taskId != .text t.id) ++ [.ofTask e.seq t]) := by
  cases hdb : r.database with
  | none => simp [takesWrites, hdb] at h
  | some db =>
    have hopen := (takesWrites_of_database hdb).mp h
    obtain ⟨rows, hrows⟩ := Option.isSome_iff_exists.mp hopen.1
    refine ⟨rows, by simp [table, hdb, hrows], ?_⟩
    rw [table, database_store, hdb, Option.map_some, if_pos hopen]
    simp [hrows]

theorem rowsUnder_store (h : r.takesWrites = true) :
    (r.store e t).rowsUnder t.id = [.ofTask e.seq t] := by
  obtain ⟨rows, -, hafter⟩ := table_store (e := e) (t := t) h
  simp [rowsUnder, hafter, List.filter_filter, Row.ofTask]

theorem tableElsewhere_store : (r.store e t).tableElsewhere t.id = r.tableElsewhere t.id := by
  cases htakes : r.takesWrites with
  | false => simp [tableElsewhere, table, database_store_of_closed htakes]
  | true =>
    obtain ⟨rows, hbefore, hafter⟩ := table_store (e := e) (t := t) htakes
    simp [tableElsewhere, hbefore, hafter, List.filter_filter, Row.ofTask]

theorem rowsUnder_amend (hid : t.id = e.task.id) :
    (r.amend e t).rowsUnder e.task.id =
      if t ≠ e.task ∧ r.takesWrites = true then [.ofTask e.seq t] else r.rowsUnder e.task.id := by
  unfold amend
  split
  · next hsame => simp [hsame]
  · next hne =>
    cases htakes : r.takesWrites with
    | false => simp [rowsUnder, table, database_store_of_closed htakes]
    | true => simpa [hne, hid] using rowsUnder_store (e := e) (t := t) htakes

theorem replaced_amend {id : String} (he : r.find? id = some e) (hid : t.id = e.task.id) :
    r.Replaced e t (r.amend e t) where
  task := by rw [find?_amend he hid, if_pos (id_of_find? he)]
  others := others_amend hid
  places := places_amend hid
  next := nextSeq_amend r e t
  elsewhere := by
    unfold amend
    split
    · rfl
    · exact hid ▸ tableElsewhere_store
  backing := by
    unfold amend
    split
    · rfl
    · exact writable_store
  row := rowsUnder_amend hid
  inStep htakes hrow := by
    rw [rowsUnder_amend hid, hrow]
    by_cases hsame : t = e.task <;> simp [hsame, htakes, Entry.row]

/-- A change is made as a whole or not at all. -/
structure AllOrNothing (r : Registry) (id : String) (steps : List Task.Step) : Prop where
  unknown : r.find? id = none → r.updateSteps id steps = (.error (.notFound .task id), r)
  /-- What was done before an operation is refused is done to a copy, and goes with it. -/
  refused : ∀ {e refusal rest} {replies : List Task.Reply}, r.find? id = some e →
    e.task.answers steps = replies.map .ok ++ .error refusal :: rest →
    (e.task.steps steps).2 = e.task.drive (steps.take replies.length) ∧
      r.updateSteps id steps = (.error refusal.error, r)
  made : ∀ {e} {replies : List Task.Reply}, r.find? id = some e →
    e.task.answers steps = replies.map .ok →
    ∃ r', r.updateSteps id steps = (.ok replies, r') ∧ r.Replaced e (e.task.drive steps) r'

theorem updateSteps_allOrNothing (r : Registry) (id : String) (steps : List Task.Step) :
    r.AllOrNothing id steps where
  unknown hnone := by simp [updateSteps, update, hnone]
  refused he hanswers := by
    have hsteps := Task.steps_of_answers_error hanswers
    refine ⟨congrArg Prod.snd hsteps, ?_⟩
    simp [updateSteps, update, he, Task.reported, hsteps, Except.mapError]
  made {e replies} he hanswers := by
    have hsteps : Task.reported (e.task.steps steps) = (.ok replies, e.task.drive steps) :=
      Task.reported_eq_ok_iff.mpr (Task.steps_of_answers_ok hanswers)
    exact ⟨_, update_eq_ok_iff.mpr ⟨e, _, he, hsteps, rfl⟩,
      replaced_amend he (e.task.drive_id steps)⟩

/-- A task under an identifier that is taken is refused, and only a number is used up. -/
theorem create_of_taken {e : Entry} (h : r.find? t.id = some e) :
    ∃ message, r.create t = (.error (.internal message), { r with nextSeq := r.nextSeq + 1 }) := by
  simp [create, h]

/-- In every state of a registry, in memory or kept in a table: operations on a task are made as a
whole or not at all, any other change that is refused leaves everything as it is, and nothing is
changed for a task that is not there or is there already. -/
theorem changes_whole (r : Registry) :
    (∀ id steps, r.AllOrNothing id steps) ∧
      (∀ {α : Type} {id : String} {change : Task → Except Error α × Task} {error : Error},
        (r.update id change).1 = .error error → (r.update id change).2 = r) ∧
      ∀ t, r.find? t.id ≠ none → ∃ message,
        r.create t = (.error (.internal message), { r with nextSeq := r.nextSeq + 1 }) := by
  refine ⟨r.updateSteps_allOrNothing, update_error, fun t htaken => ?_⟩
  obtain ⟨e, he⟩ := Option.ne_none_iff_exists'.mp htaken
  exact create_of_taken he

section Example

def appliedTask : Task :=
  { Task.create "a" "S1" 3 false 10 with
    status := .success, processed := 3, completedAt := some 12 }

def startedTask : Task :=
  { Task.create "b" "S2" 3 false 20 with status := .running, processed := 1 }

/-- Two rebuilds with their rows, of which the second is running. -/
def twoStored : Registry :=
  { entries := [{ seq := 0, task := appliedTask }, { seq := 1, task := startedTask }]
    nextSeq := 2
    database := some (tableOf [{ seq := 0, task := appliedTask }, { seq := 1, task := startedTask }]) }

def cancelledTask : Task :=
  { startedTask with
    status := .failed, processed := 2, failed := 1, errorMessage := some Task.cancelledMessage,
    completedAt := some 25 }

/-- Progress and a cancellation before a second cancellation are made on the copy only. Without it both
operations are made, and the other task and its row stay. -/
theorem changes_whole_cancelled :
    ((startedTask.steps [.progress 2, .cancel 25, .cancel 26]).2 = cancelledTask ∧
        twoStored.updateSteps "b" [.progress 2, .cancel 25, .cancel 26] =
          (.error (.invalidOperation "cannot cancel task b: already FAILED"), twoStored)) ∧
      (∃ r', twoStored.updateSteps "b" [.progress 2, .cancel 25] = (.ok [some true, none], r') ∧
        r'.find? "b" = some { seq := 1, task := cancelledTask } ∧
        r'.entries.filter (·.task.id != "b") = [{ seq := 0, task := appliedTask }] ∧
        r'.rowsUnder "b" = [.ofTask 1 cancelledTask] ∧
        r'.tableElsewhere "b" = some [.ofTask 0 appliedTask]) ∧
      (twoStored.create (Task.create "a" "S3" 1 false 30)).2 = { twoStored with nextSeq := 3 } := by
  obtain ⟨hchanges, -, hcreate⟩ := changes_whole twoStored
  have hfind : twoStored.find? "b" = some { seq := 1, task := startedTask } := by decide
  have hdrive : startedTask.drive [.progress 2, .cancel 25] = cancelledTask := by decide
  have hboth : startedTask.answers [.progress 2, .cancel 25] = [some true, none].map .ok := rfl
  have hlate : startedTask.answers [.progress 2, .cancel 25, .cancel 26] =
      [some true, none].map .ok ++ [.error (.ended "cancel" "b" .failed)] := rfl
  obtain ⟨hcopy, hrefused⟩ := (hchanges "b" _).refused hfind hlate
  refine ⟨⟨hcopy.trans hdrive, hrefused⟩, ?_, ?_⟩
  · obtain ⟨r', hchange, hreplaced⟩ := (hchanges "b" _).made hfind hboth
    rw [hdrive] at hreplaced
    refine ⟨r', hchange, hreplaced.task, hreplaced.others.trans ?_, ?_,
      hreplaced.elsewhere.trans ?_⟩
    · decide
    · exact hreplaced.inStep (by decide) (by decide)
    · decide
  · obtain ⟨message, hrefused⟩ := hcreate (Task.create "a" "S3" 1 false 30) (by decide)
    rw [hrefused]
    rfl

end Example

end Registry
end FirewallRollout
