import FirewallRollout.Api.Handler
import FirewallRollout.Proofs.Registry.Listing
import FirewallRollout.Proofs.Registry.Reached

/-!
# Pages of a listing

A client that asks for one page after the other is shown every task of the listing once, from the
newest to the oldest, and no page is shorter than it has to be. The order is that of the starts and,
for one moment, that of the creations, whatever has happened to the registry since.
-/
namespace FirewallRollout

/-- One task started after another, or at the same moment and was created after it. -/
def Task.Newer (tries : List (Option String)) (t u : Task) : Prop :=
  u.startedAt.toInt < t.startedAt.toInt ∨
    t.startedAt = u.startedAt ∧ [some u.id, some t.id].Sublist tries

namespace Registry
open Storage (seqRoom)

theorem pageSize_pos (limit : Nat) : 0 < pageSize limit := by
  unfold pageSize
  split
  · decide
  · simp only [maxPageSize]
    omega

/-- A size that is asked for twice is the same. -/
theorem pageSize_pageSize (limit : Nat) : pageSize (pageSize limit) = pageSize limit := by
  have hpos := pageSize_pos limit
  unfold pageSize at hpos ⊢
  simp only [defaultPageSize, maxPageSize] at hpos ⊢
  split_ifs <;> omega

/-- The pages from an offset on, each as far behind the one before as this was long at most. -/
def pagesFrom (r : Registry) (f : Filter) (limit offset : Nat) : List (List Task) :=
  if offset < (r.list f limit offset).2 then
    (r.list f limit offset).1 :: r.pagesFrom f limit (offset + pageSize limit)
  else []
termination_by (r.matching f).length - offset
decreasing_by
  have hpos := pageSize_pos limit
  have hmore : offset < (r.matching f).length := by assumption
  omega

section Pages
variable (r : Registry) (f : Filter) (limit : Nat)

/-- The pages are pieces of the listing. -/
theorem flatten_pagesFrom (offset : Nat) :
    (r.pagesFrom f limit offset).flatten = (r.matching f).drop offset := by
  fun_induction pagesFrom r f limit offset with
  | case1 offset hmore ih =>
    rw [List.flatten_cons, ih, ← List.drop_drop]
    exact List.take_append_drop _ _
  | case2 offset hend => exact (List.drop_eq_nil_of_le (Nat.le_of_not_lt hend)).symm

theorem matching_perm : (r.matching f).Perm (r.tasks.filter f.accepts) := by
  have hsorted := List.mergeSort_perm (r.entries.filter fun e => f.accepts e.task) Entry.newerFirst
  have htasks : (r.entries.filter fun e => f.accepts e.task).map Entry.task =
      r.tasks.filter f.accepts := by
    rw [tasks, List.filter_map]
    rfl
  exact htasks ▸ hsorted.map Entry.task

theorem total_list (offset : Nat) :
    (r.list f limit offset).2 = r.tasks.countP f.accepts := by
  rw [list, (r.matching_perm f).length_eq, List.countP_eq_length_filter]

theorem length_page (offset : Nat) : (r.list f limit offset).1.length =
    min (pageSize limit) ((r.list f limit offset).2 - offset) := by
  rw [list, List.length_take, List.length_drop]

end Pages

/-- All pages of a listing, for a page size that is asked for. -/
structure Tiles (tries : List (Option String)) (r : Registry) (f : Filter) (limit : Nat) :
    Prop where
  /-- It does not matter in which order the registry holds its tasks. -/
  anyOrder : ∀ {r' : Registry}, r'.entries.Perm r.entries →
    ∀ offset, r'.list f limit offset = r.list f limit offset
  total : ∀ offset, (r.list f limit offset).2 = r.tasks.countP f.accepts
  size : ∀ offset, (r.list f limit offset).1.length =
    min (pageSize limit) ((r.list f limit offset).2 - offset)
  complete : (r.pagesFrom f limit 0).flatten.Perm (r.tasks.filter f.accepts)
  distinct : ((r.pagesFrom f limit 0).flatten.map Task.id).Nodup
  newestFirst : (r.pagesFrom f limit 0).flatten.Pairwise (Task.Newer tries)

/-- A page of the interface is one of these, and tells its size. -/
def Answered (r : Registry) (query : String) (payload : Api.Payload) : Prop :=
  ∃ (q : Api.Query) (limit? offset? : Option Nat) (status? : Option Status),
    Api.Query.read ["serverId", "status", "limit", "offset"] query = .ok q ∧
    q.number? "limit" = .ok limit? ∧ q.number? "offset" = .ok offset? ∧
    (q.name? "status").mapM Status.parse = .ok status? ∧
    let f : Filter := { server := q.name? "serverId", status := status? }
    let (tasks, total) := r.list f (limit?.getD 0) (offset?.getD 0)
    payload = .page
      { tasks, total, limit := pageSize (limit?.getD 0), offset := offset?.getD 0 }

section Kept
variable {tries : List (Option String)} {r : Registry} (h : Kept tries r) (f : Filter)
include h

theorem Kept.seqs : (r.entries.map Entry.seq).Nodup := by
  simpa [places, Entry.place, Function.comp_def] using h.numbered.distinct

theorem Kept.matching_eq {r' : Registry} (hperm : r'.entries.Perm r.entries) :
    r'.matching f = r.matching f := by
  have hfiltered := hperm.filter fun e => f.accepts e.task
  have hdistinct : ((r'.entries.filter fun e => f.accepts e.task).map Entry.seq).Nodup :=
    ((hfiltered.map Entry.seq).nodup_iff).mpr (h.seqs.sublist (List.filter_sublist.map _))
  have hsame : (r'.entries.filter fun e => f.accepts e.task).Perm
      ((r.entries.filter fun e => f.accepts e.task).map id) := by
    rwa [List.map_id]
  rw [matching, listed_eq_map hsame (fun _ _ => rfl) hdistinct, List.map_id, matching]

theorem Kept.nodup_matching : ((r.matching f).map Task.id).Nodup := by
  have hids : (r.tasks.map Task.id).Nodup := by
    simpa [places, tasks, Entry.place, Function.comp_def] using h.ids
  rw [((r.matching_perm f).map Task.id).nodup_iff]
  exact hids.sublist (List.filter_sublist.map _)

/-- No two tasks may change places. -/
theorem Kept.newestFirst : (r.matching f).Pairwise (Task.Newer tries) := by
  let accepted := r.entries.filter fun e => f.accepts e.task
  have hmem : ∀ e ∈ accepted.mergeSort Entry.newerFirst, e ∈ r.entries := fun e he =>
    (List.mem_filter.mp (List.mem_mergeSort.mp he)).1
  have hseqs : (accepted.mergeSort Entry.newerFirst).Pairwise fun d e => d.seq ≠ e.seq := by
    have hsorted := (List.mergeSort_perm accepted Entry.newerFirst).map Entry.seq
    exact List.pairwise_map.mp
      (hsorted.nodup_iff.mpr (h.seqs.sublist (List.filter_sublist.map _)))
  rw [matching, List.pairwise_map]
  refine ((pairwise_listed accepted).and hseqs).imp_of_mem fun {d e} hd he hde => ?_
  obtain ⟨hnewer, hne⟩ := hde
  rcases Entry.newerFirst_iff.mp hnewer with hlater | ⟨hsame, hseq⟩
  · exact .inl hlater
  · have hlt : e.seq < d.seq := by
      have := mt UInt64.toNat_inj.mp hne
      rw [UInt64.lt_iff_toNat_lt]
      omega
    exact .inr ⟨Int64.toInt_inj.mp hsame, h.ordered e.place (List.mem_map_of_mem (hmem e he))
      d.place (List.mem_map_of_mem (hmem d hd)) hlt⟩

theorem Kept.tiles (limit : Nat) : Tiles tries r f limit where
  anyOrder hperm offset := by
    rw [list, list, h.matching_eq f hperm]
  total := r.total_list f limit
  size := r.length_page f limit
  complete := by
    rw [flatten_pagesFrom]
    exact r.matching_perm f
  distinct := by
    rw [flatten_pagesFrom]
    exact h.nodup_matching f
  newestFirst := by
    rw [flatten_pagesFrom]
    exact h.newestFirst f

end Kept

/-- The size of a page is worked out once for the answer and once more for the list. -/
theorem answered_listing {s : Rebuild.State} {query : String} {payload : Api.Payload}
    (h : Api.listing s query = .ok payload) : Answered s.registry query payload := by
  obtain ⟨q, hq, h⟩ := bind_ok h
  obtain ⟨limit?, hlimit, h⟩ := bind_ok h
  obtain ⟨offset?, hoffset, h⟩ := bind_ok h
  obtain ⟨status?, hstatus, h⟩ := bind_ok h
  refine ⟨q, limit?, offset?, status?, hq, hlimit, hoffset, hstatus, ?_⟩
  simpa only [list, pageSize_pageSize] using (Except.ok.inj h).symm

/-- Whatever has happened to a registry, its pages make up the listing, and those of the interface are
pages of it. The creations that were tried are no more than its column of numbers has room for. -/
theorem pages_tile {tries : List (Option String)} {r : Registry} (h : Reached tries r)
    (hroom : tries.length ≤ seqRoom) :
    (r.tasks.map Task.id).Perm (tries.filterMap fun id => id) ∧
    (∀ f limit, Tiles tries r f limit) ∧
    ∀ (s : Rebuild.State) (query : String) (payload : Api.Payload), s.registry = r →
      Api.listing s query = .ok payload → Answered r query payload := by
  have hkept := h.kept hroom
  refine ⟨?_, hkept.tiles, fun s query payload hs hlisting => hs ▸ answered_listing hlisting⟩
  simpa [places, tasks, Entry.place, Function.comp_def] using hkept.all

section Example

def olderTask : Task := Task.create "a" "S1" 3 false 10

/-- A task that started with the older one. -/
def twinTask : Task := Task.create "b" "S1" 3 false 10

/-- A file in which the older task was created, once more without success, and then the other. -/
def withTwin : Registry :=
  (opened 0).attempts
    [⟨.create olderTask, false⟩, ⟨.create olderTask, false⟩, ⟨.create twinTask, false⟩]

/-- Both tasks are on the pages of a new start, the one that was created last before the other. -/
theorem pages_tile_twins :
    ∃ r, (withTwin.allowing true).reopen 30 = .ok (r, 2) ∧ Reached [some "a", none, some "b"] r ∧
      [some "a", none, some "b"].length ≤ seqRoom ∧ r.tasks.map Task.id = ["a", "b"] ∧
      Tiles [some "a", none, some "b"] r {} 1 := by
  let first := (opened 0).attempt ⟨.create olderTask, false⟩
  let second := first.attempt ⟨.create olderTask, false⟩
  have hroom : [some "a", none, some "b"].length ≤ seqRoom := by decide
  have hfirst : ((opened 0).allowing !false).create olderTask = (.ok olderTask, first) := rfl
  have hsecond : (first.allowing !false).create olderTask =
      (.error (.internal "duplicate task id a"), second) := rfl
  have hthird : (second.allowing !false).create twinTask = (.ok twinTask, withTwin) := rfl
  obtain ⟨r, hstart, hids⟩ : ∃ r, (withTwin.allowing !false).reopen 30 = .ok (r, 2) ∧
      r.tasks.map Task.id = ["a", "b"] := ⟨_, rfl, rfl⟩
  have hreached : Reached [some "a", none, some "b"] r :=
    .reopened (.created (.refused (.created (.file 0) hfirst) hsecond) hthird) rfl hstart
  exact ⟨r, hstart, hreached, hroom, hids, (pages_tile hreached hroom).2.1 {} 1⟩

end Example

end Registry
end FirewallRollout
