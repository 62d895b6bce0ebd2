import FirewallRollout.Proofs.Registry.Active
import FirewallRollout.Proofs.Registry.Paging
import FirewallRollout.Proofs.Registry.StoredCounters
import Mathlib.Algebra.BigOperators.Finprod

/-!
# Views of activity

The tasks that have not ended are counted as a whole, listed by status, and looked up for one server.
Each view goes over the registry on its own, and they agree in every state of it. Of several active
tasks of a server the one that is looked up is the one that was created last, however their starts
are ordered and whatever was restored before. A database that was just opened has no active task.
-/
namespace FirewallRollout.Registry
open Storage (Database seqRoom)

/-- The tasks that wait, of a server or of all. -/
def Filter.pending (server : Option String) : Filter := { server, status := some .pending }

/-- The tasks that run, of a server or of all. -/
def Filter.running (server : Option String) : Filter := { server, status := some .running }

/-- Whether one of the two filters accepts a task. -/
def isShown (server : Option String) (t : Task) : Bool :=
  (Filter.pending server).accepts t || (Filter.running server).accepts t

/-- The entry with the greatest number among those that the filters of a server accept. -/
structure Latest (r : Registry) (server : String) (e : Entry) : Prop where
  mem : e ∈ r.entries
  shown : isShown (some server) e.task = true
  last : ∀ d ∈ r.entries, isShown (some server) d.task = true → d.seq ≤ e.seq

/-- No task is active. -/
structure Idle (r : Registry) : Prop where
  count : r.activeCount = 0
  servers : ∀ server, r.activeFor server = none

/-- A task is shown until it has ended. -/
theorem isShown_eq (server : Option String) (t : Task) :
    isShown server t = (server.all (t.server == ·) && !t.isTerminal) := by
  rw [isShown, Filter.accepts, Filter.accepts, Filter.pending, Filter.running,
    ← Bool.and_or_distrib_left, Task.isTerminal]
  cases t.status <;> rfl

section Counting
variable (r : Registry)

theorem activeCount_eq_countP : r.activeCount = r.tasks.countP fun t => !t.isTerminal := by
  rw [activeCount, tasks, List.countP_map]
  rfl

theorem length_inFlight (server : String) :
    (r.inFlight server).length = r.tasks.countP (isShown (some server)) := by
  rw [inFlight, ← List.countP_eq_length_filter]
  congr 1
  funext t
  rw [isShown_eq, Option.all_some]

/-- No task is shown by both filters. -/
theorem total_pending_add_running (server : Option String) (limit offset : Nat) :
    (r.list (.pending server) limit offset).2 + (r.list (.running server) limit offset).2 =
      r.tasks.countP (isShown server) := by
  rw [total_list, total_list]
  induction r.tasks with
  | nil => rfl
  | cons t l ih =>
    have hone : (if (Filter.pending server).accepts t then 1 else 0) +
        (if (Filter.running server).accepts t then 1 else 0) = if isShown server t then 1 else 0 := by
      rw [isShown, Filter.accepts, Filter.accepts, Filter.pending, Filter.running]
      cases server.all (t.server == ·) <;> cases t.status <;> rfl
    rw [List.countP_cons, List.countP_cons, List.countP_cons]
    omega

/-- Each active task is counted on its own server. -/
theorem sum_length_inFlight {servers : Finset String} (h : ∀ t ∈ r.tasks, t.server ∈ servers) :
    ∑ server ∈ servers, (r.inFlight server).length = r.activeCount := by
  have hfiber : ∀ server, (r.inFlight server).length =
      (r.tasks.filter (·.server == server)).countP fun t => !t.isTerminal := by
    intro server
    rw [inFlight, ← List.countP_eq_length_filter, List.countP_filter]
    congr 1
    funext t
    exact Bool.and_comm ..
  have hsum := Keyed.sum_countP_fibers Task.server (fun t => !t.isTerminal) servers.nodup_toList
    fun t ht => Finset.mem_toList.mpr (h t ht)
  rw [activeCount_eq_countP, ← hsum, Finset.sum_map_toList]
  exact Finset.sum_congr rfl fun server _ => hfiber server

theorem finsum_length_inFlight : ∑ᶠ server, (r.inFlight server).length = r.activeCount := by
  have hsupport : (Function.support fun server => (r.inFlight server).length) ⊆
      ((r.tasks.map Task.server).toFinset : Set String) := by
    intro server hserver
    obtain ⟨t, ht⟩ := List.exists_mem_of_length_pos (Nat.pos_of_ne_zero hserver)
    obtain ⟨⟨e, he, rfl⟩, hsame, -⟩ := mem_inFlight.mp ht
    exact List.mem_toFinset.mpr (List.mem_map.mpr ⟨e.task, List.mem_map_of_mem he, hsame⟩)
  rw [finsum_eq_sum_of_support_subset _ hsupport]
  exact r.sum_length_inFlight fun t ht => List.mem_toFinset.mpr (List.mem_map_of_mem ht)

end Counting

/-! ## The task that is looked up -/

/-- The later of two entries is one of them, and comes before neither. -/
theorem Entry.later_spec (a b : Entry) :
    (a.later b = a ∨ a.later b = b) ∧ a.seq ≤ (a.later b).seq ∧ b.seq ≤ (a.later b).seq := by
  unfold later
  split
  · next hle => exact ⟨.inr rfl, hle, UInt64.le_refl _⟩
  · next hlt => exact ⟨.inl rfl, UInt64.le_refl _, UInt64.le_of_lt (UInt64.not_le.mp hlt)⟩

/-- Going through some entries ends at one of them, which comes before none of the others. -/
theorem foldl_later (e : Entry) (rest : List Entry) :
    rest.foldl Entry.later e ∈ e :: rest ∧
      ∀ d ∈ e :: rest, d.seq ≤ (rest.foldl Entry.later e).seq := by
  induction rest generalizing e with
  | nil => simp
  | cons x rest ih =>
    obtain ⟨hmem, hlast⟩ := ih (e.later x)
    obtain ⟨hlater, hfirst, hsecond⟩ := e.later_spec x
    obtain ⟨hbest, hrest⟩ := List.forall_mem_cons.mp hlast
    rw [List.foldl_cons, List.forall_mem_cons, List.forall_mem_cons]
    refine ⟨?_, UInt64.le_trans hfirst hbest, UInt64.le_trans hsecond hbest, hrest⟩
    rcases List.mem_cons.mp hmem with hsame | hmem
    · rw [hsame]
      rcases hlater with hlater | hlater <;> simp [hlater]
    · exact .tail _ (.tail _ hmem)

section LookedUp
variable {r : Registry} {server : String}

theorem activeFor_eq_none_iff : r.activeFor server = none ↔ r.inFlight server = [] := by
  rw [inFlight_eq_map, List.map_eq_nil_iff]
  unfold activeFor
  split <;> simp_all

theorem isSome_activeFor_iff :
    (r.activeFor server).isSome = true ↔ 0 < r.tasks.countP (isShown (some server)) := by
  rw [← length_inFlight, List.length_pos_iff, ← Option.ne_none_iff_isSome]
  exact activeFor_eq_none_iff.not

/-- The count is zero where every server is inactive. -/
theorem activeCount_eq_zero_iff : r.activeCount = 0 ↔ ∀ server, r.activeFor server = none := by
  simp only [activeFor_eq_none_iff, activeCount_eq_countP, List.countP_eq_zero, inFlight,
    List.filter_eq_nil_iff, Bool.and_eq_true, not_and, beq_iff_eq]
  exact ⟨fun h server t ht _ => h t ht, fun h t ht => h t.server t ht rfl⟩

theorem latest_of_activeFor {t : Task} (h : r.activeFor server = some t) :
    ∃ e, r.Latest server e ∧ e.task = t := by
  have hshown : (fun e : Entry => e.task.server == server && !e.task.isTerminal) =
      fun e => isShown (some server) e.task := by
    funext e
    rw [isShown_eq, Option.all_some]
  unfold activeFor at h
  rw [hshown] at h
  split at h
  · cases h
  · next e rest hactive =>
    obtain ⟨hmem, hlast⟩ := foldl_later e rest
    rw [← hactive] at hmem hlast
    refine ⟨_, ⟨(List.mem_filter.mp hmem).1, (List.mem_filter.mp hmem).2, ?_⟩, Option.some.inj h⟩
    exact fun d hd hshown => hlast d (List.mem_filter.mpr ⟨hd, hshown⟩)

theorem Latest.unique (hseqs : (r.entries.map Entry.seq).Nodup) {e e' : Entry}
    (h : r.Latest server e) (h' : r.Latest server e') : e = e' :=
  List.inj_on_of_nodup_map hseqs h.mem h'.mem
    (UInt64.le_antisymm (h'.last e h.mem h.shown) (h.last e' h'.mem h'.shown))

/-- Where no two tasks have one place, the place decides. -/
theorem activeFor_eq_some_iff (hseqs : (r.entries.map Entry.seq).Nodup) {t : Task} :
    r.activeFor server = some t ↔ ∃ e, r.Latest server e ∧ e.task = t := by
  refine ⟨latest_of_activeFor, ?_⟩
  rintro ⟨e, he, rfl⟩
  have hsome : (r.activeFor server).isSome = true :=
    isSome_activeFor_iff.mpr (List.countP_pos_iff.mpr ⟨e.task, List.mem_map_of_mem he.mem, he.shown⟩)
  obtain ⟨t, ht⟩ := Option.isSome_iff_exists.mp hsome
  obtain ⟨d, hd, rfl⟩ := latest_of_activeFor ht
  rw [ht, hd.unique hseqs he]

theorem Latest.of_perm {r' : Registry} {e : Entry} (hperm : r'.entries.Perm r.entries)
    (h : r.Latest server e) : r'.Latest server e where
  mem := hperm.mem_iff.mpr h.mem
  shown := h.shown
  last d hd := h.last d (hperm.mem_iff.mp hd)

theorem activeFor_perm {r' : Registry} (hperm : r'.entries.Perm r.entries)
    (hseqs : (r.entries.map Entry.seq).Nodup) : r'.activeFor server = r.activeFor server := by
  ext t
  rw [activeFor_eq_some_iff ((hperm.map Entry.seq).nodup_iff.mpr hseqs), activeFor_eq_some_iff hseqs]
  exact exists_congr fun e => and_congr_left' ⟨.of_perm hperm.symm, .of_perm hperm⟩

end LookedUp

/-- A new start ends every task that had not ended. -/
theorem idle_openDatabase {db : Database} {now : Int64} {r : Registry} {ended : Nat}
    (h : openDatabase db now = .ok (r, ended)) : r.Idle := by
  have hcount : r.activeCount = 0 := by
    rw [activeCount_eq_countP, List.countP_eq_zero]
    intro t ht
    obtain ⟨row, -, n, u, -, rfl⟩ := (mem_tasks_openDatabase h).mp ht
    simp [restore_isTerminal]
  exact ⟨hcount, activeCount_eq_zero_iff.mp hcount⟩

/-- What is counted, listed and looked up as active are the same tasks. -/
structure ViewsAgree (r : Registry) : Prop where
  count : ∀ limit offset, r.activeCount =
    (r.list (.pending none) limit offset).2 + (r.list (.running none) limit offset).2
  servers : r.activeCount = ∑ᶠ server, (r.inFlight server).length
  active : ∀ server limit offset, (r.activeFor server).isSome = true ↔
    0 < (r.list (.pending (some server)) limit offset).2 ∨
      0 < (r.list (.running (some server)) limit offset).2
  latest : ∀ {server t}, r.activeFor server = some t → ∃ e, r.Latest server e ∧ e.task = t

theorem viewsAgree (r : Registry) : r.ViewsAgree where
  count limit offset := by
    rw [total_pending_add_running, activeCount_eq_countP]
    congr 1
    funext t
    exact (isShown_eq none t).symm
  servers := r.finsum_length_inFlight.symm
  active server limit offset := by
    rw [isSome_activeFor_iff, ← r.total_pending_add_running (some server) limit offset,
      Nat.add_pos_iff_pos_or_pos]
  latest := latest_of_activeFor

/-- The task that is looked up for a server is the one that was created last, for the creations that
were tried. -/
structure FindsLastCreated (tries : List (Option String)) (r : Registry) : Prop where
  unique : ∀ {server e e'}, r.Latest server e → r.Latest server e' → e = e'
  createdLast : ∀ {server t u}, r.activeFor server = some t → u ∈ r.inFlight server → u ≠ t →
    [some u.id, some t.id].Sublist tries
  /-- It does not matter in which order the registry holds its tasks. -/
  anyOrder : ∀ {r' : Registry}, r'.entries.Perm r.entries →
    ∀ server, r'.activeFor server = r.activeFor server

theorem Kept.findsLastCreated {tries : List (Option String)} {r : Registry} (h : Kept tries r) :
    FindsLastCreated tries r where
  unique := Latest.unique h.seqs
  createdLast {server t u} ht hu hne := by
    obtain ⟨e, he, rfl⟩ := latest_of_activeFor ht
    obtain ⟨⟨d, hd, rfl⟩, hserver, hactive⟩ := mem_inFlight.mp hu
    have hshown : isShown (some server) d.task = true := by
      simp [isShown_eq, hserver, hactive]
    have hseq : d.seq ≠ e.seq := fun hseq =>
      hne (congrArg Entry.task (List.inj_on_of_nodup_map h.seqs hd he.mem hseq))
    have hlt : d.seq < e.seq := UInt64.lt_of_le_of_ne (he.last d hd hshown) hseq
    exact h.ordered d.place (List.mem_map_of_mem hd) e.place (List.mem_map_of_mem he.mem) hlt
  anyOrder hperm _ := activeFor_perm hperm h.seqs

/-- In every state of a registry its views of activity agree. If it was come to from an empty one, by
no more creations than its column of numbers has room for, the task that is looked up for a server is
the active one that was created last. If it was just opened, from whatever database, no task is active. -/
theorem views_agree (r : Registry) :
    r.ViewsAgree ∧
    (∀ {tries : List (Option String)}, Reached tries r → tries.length ≤ seqRoom →
      FindsLastCreated tries r) ∧
    ∀ {db : Database} {now : Int64} {ended : Nat}, openDatabase db now = .ok (r, ended) → r.Idle :=
  ⟨r.viewsAgree, fun h hroom => (h.kept hroom).findsLastCreated, idle_openDatabase⟩

section Example

/-- A task of a process that is gone. -/
def orphanTask : Task := Task.create "a" "S1" 3 false 50

def earlierTask : Task := Task.create "b" "S1" 3 false 30

/-- A task that was created after the earlier one, with an older start. -/
def laterTask : Task := Task.create "c" "S1" 3 false 10

def elsewhereTask : Task := Task.create "d" "S2" 3 false 20

/-- A file that was opened again with one task in it. -/
def afterRestart : Registry :=
  ((opened 0).attempt ⟨.create orphanTask, false⟩).handle (.reopen 60)

/-- Three more tasks, of which the first has started. -/
def busyAgain : Registry :=
  afterRestart.attempts
    [⟨.create earlierTask, false⟩, stepsOf "b" [.start] false, ⟨.create laterTask, false⟩,
     ⟨.create elsewhereTask, false⟩]

/-- Of two active tasks of a server the later one is found, although the other has started since and
has the newer start. -/
theorem views_agree_busy :
    afterRestart.Idle ∧
      Reached [some "a", some "b", some "c", some "d"] busyAgain ∧
      busyAgain.activeCount = 3 ∧
      (busyAgain.list (.pending none) 1 0).2 + (busyAgain.list (.running none) 1 0).2 = 3 ∧
      busyAgain.activeFor "S1" = some laterTask ∧
      [some "b", some "c"].Sublist [some "a", some "b", some "c", some "d"] := by
  let tries := [some "a", some "b", some "c", some "d"]
  let stored := (opened 0).attempt ⟨.create orphanTask, false⟩
  let first := afterRestart.attempt ⟨.create earlierTask, false⟩
  let second := first.attempt (stepsOf "b" [.start] false)
  let third := second.attempt ⟨.create laterTask, false⟩
  have hstored : ((opened 0).allowing !false).create orphanTask = (.ok orphanTask, stored) := rfl
  have hstart : (stored.allowing !false).reopen 60 = .ok (afterRestart, 1) := by decide +kernel
  have hfirst : (afterRestart.allowing !false).create earlierTask = (.ok earlierTask, first) := by
    decide +kernel
  have hthird : (second.allowing !false).create laterTask = (.ok laterTask, third) := by
    decide +kernel
  have hlast : (third.allowing !false).create elsewhereTask = (.ok elsewhereTask, busyAgain) := by
    decide +kernel
  have hreached : Reached tries busyAgain :=
    .created (.created (.updated (.created (.reopened (.created (.file 0) hstored) rfl hstart) hfirst)
      "b" _ false) hthird) hlast
  obtain ⟨hviews, hfinds, -⟩ := views_agree busyAgain
  have hcount : busyAgain.activeCount = 3 := by decide +kernel
  have hactive : busyAgain.activeFor "S1" = some laterTask := by decide +kernel
  have hrunning : { earlierTask with status := .running } ∈ busyAgain.inFlight "S1" := by
    decide +kernel
  exact ⟨(views_agree afterRestart).2.2 hstart, hreached, hcount, (hviews.count 1 0).symm.trans hcount,
    hactive, (hfinds hreached (by decide)).createdLast hactive hrunning (by decide)⟩

end Example

end FirewallRollout.Registry
