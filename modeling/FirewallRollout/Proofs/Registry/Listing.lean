import FirewallRollout.Proofs.Registry.Order

/-!
# Listings

Tasks are listed by the moment at which they started and, for one moment, by their places in the
order of creation. A listing depends on nothing else, so that a new start does not change its order.
-/
namespace FirewallRollout.Registry
open Storage (seqRoom)

theorem Entry.newerFirst_iff {a b : Entry} :
    a.newerFirst b = true ↔ b.task.startedAt.toInt < a.task.startedAt.toInt ∨
      a.task.startedAt.toInt = b.task.startedAt.toInt ∧ b.seq.toNat ≤ a.seq.toNat := by
  simp [newerFirst, Int64.toInt_inj, UInt64.le_iff_toNat_le]

theorem pairwise_listed (l : List Entry) :
    (l.mergeSort Entry.newerFirst).Pairwise fun a b => a.newerFirst b = true := by
  apply List.pairwise_mergeSort
  · intro a b c hab hbc
    rw [Entry.newerFirst_iff] at hab hbc ⊢
    omega
  · intro a b
    rw [Bool.or_eq_true, Entry.newerFirst_iff, Entry.newerFirst_iff]
    omega

/-- What a listing goes by. -/
def Entry.rank (e : Entry) : Int64 × UInt64 := (e.task.startedAt, e.seq)

theorem Entry.newerFirst_congr {a a' b b' : Entry} (ha : a'.rank = a.rank) (hb : b'.rank = b.rank) :
    a'.newerFirst b' = a.newerFirst b := by
  obtain ⟨hastarted, haseq⟩ := Prod.mk.inj ha
  obtain ⟨hbstarted, hbseq⟩ := Prod.mk.inj hb
  simp [newerFirst, hastarted, haseq, hbstarted, hbseq]

/-- Entries that keep their ranks are listed in the same order. -/
theorem listed_eq_map {l l' : List Entry} {f : Entry → Entry} (hperm : l'.Perm (l.map f))
    (hrank : ∀ e ∈ l, (f e).rank = e.rank) (hdistinct : (l'.map Entry.seq).Nodup) :
    l'.mergeSort Entry.newerFirst = (l.mergeSort Entry.newerFirst).map f := by
  have hlisted : ((l.mergeSort Entry.newerFirst).map f).Perm l' :=
    ((List.mergeSort_perm l _).map f).trans hperm.symm
  have hsorted : ((l.mergeSort Entry.newerFirst).map f).Pairwise fun a b => a.newerFirst b = true := by
    rw [List.pairwise_map]
    refine (pairwise_listed l).imp_of_mem fun {a b} ha hb hab => ?_
    rwa [Entry.newerFirst_congr (hrank a (List.mem_mergeSort.mp ha))
      (hrank b (List.mem_mergeSort.mp hb))]
  -- two entries that may come in either order have one place, so they are one entry
  refine List.Perm.eq_of_pairwise ?_ (pairwise_listed l') hsorted
    ((List.mergeSort_perm l' _).trans hlisted.symm)
  intro a b ha hb hab hba
  rw [Entry.newerFirst_iff] at hab hba
  have hseq : a.seq = b.seq := UInt64.toNat_inj.mp (by omega)
  exact List.inj_on_of_nodup_map hdistinct (List.mem_mergeSort.mp ha) (hlisted.mem_iff.mp hb) hseq

theorem sublist_pair_of_pairwise {α : Type} {R : α → α → Prop} {l : List α} (h : l.Pairwise R)
    {a b : α} (ha : a ∈ l) (hb : b ∈ l) (hne : a ≠ b) (hlater : ¬ R b a) : [a, b].Sublist l := by
  obtain ⟨before, after, rfl⟩ := List.append_of_mem ha
  rcases List.mem_append.mp hb with hb | hb
  · exact absurd ((List.pairwise_append.mp h).2.2 b hb a List.mem_cons_self) hlater
  · have hafter : b ∈ after := (List.mem_cons.mp hb).resolve_left hne.symm
    exact ((List.singleton_sublist.mpr hafter).cons_cons a).trans (List.sublist_append_right _ _)

/-- A task that was created later is listed before another one that started at the same moment. -/
theorem sublist_matching {r : Registry} {f : Filter} {d e : Entry} (hd : d ∈ r.entries)
    (he : e ∈ r.entries) (hdf : f.accepts d.task = true) (hef : f.accepts e.task = true)
    (hstarted : d.task.startedAt = e.task.startedAt) (hseq : e.seq < d.seq) :
    [d.task, e.task].Sublist (r.matching f) := by
  have hlt := UInt64.lt_iff_toNat_lt.mp hseq
  have hne : d ≠ e := by
    rintro rfl
    exact Nat.lt_irrefl _ hlt
  have hpair : [d, e].Sublist
      ((r.entries.filter fun e => f.accepts e.task).mergeSort Entry.newerFirst) := by
    apply sublist_pair_of_pairwise (pairwise_listed _) _ _ hne
    · rw [Entry.newerFirst_iff, hstarted]
      omega
    · exact List.mem_mergeSort.mpr (List.mem_filter.mpr ⟨hd, hdf⟩)
    · exact List.mem_mergeSort.mpr (List.mem_filter.mpr ⟨he, hef⟩)
  exact hpair.map Entry.task

/-- The tasks of a server, or of all, are on the same pages. -/
def SameListings (old new : Registry) : Prop :=
  ∀ (server : Option String) (limit offset : Nat),
    (new.list { server } limit offset).1.map Task.id =
      (old.list { server } limit offset).1.map Task.id ∧
    (new.list { server } limit offset).2 = (old.list { server } limit offset).2

/-- Tasks that are not among those of an older registry are listed before them, if they started at
the same moment. -/
def NewFirst (older newer : Registry) : Prop :=
  ∀ t ∈ newer.tasks, ∀ u ∈ newer.tasks, t.id ∉ older.tasks.map Task.id →
    u.id ∈ older.tasks.map Task.id → t.startedAt = u.startedAt →
      ∀ f : Filter, f.accepts t = true → f.accepts u = true → [t, u].Sublist (newer.matching f)

section Reopened
variable {r : Registry} {kept : List Entry}
  (hperm : (kept.map Entry.reread).Perm (r.entries.map Entry.reread)) (now : Int64)
  (hn : r.Numbered) (hroom : r.nextSeq.toNat ≤ seqRoom)
include hperm hn hroom

/-- The order of creation is read of the database, so that listings go by the same ranks. -/
theorem matching_reopened (server : Option String) :
    ((reopened now kept).matching { server }).map Task.id = (r.matching { server }).map Task.id := by
  have hrank : ∀ e ∈ r.entries, (e.revive now).rank = e.rank := by
    intro e he
    have hstarted := (restore_sameRebuild now e.task).2.2.2.2
    simp [Entry.revive_of_lt (hn.seq_lt hroom he), Entry.rank, hstarted]
  have haccepts : ∀ e : Entry, ({ server } : Filter).accepts (e.revive now).task =
      ({ server } : Filter).accepts e.task := by
    intro e
    simp [Filter.accepts, Entry.revive, (restore_sameRebuild now e.task).2.1]
  have hentries : ((reopened now kept).entries.filter
      fun e => ({ server } : Filter).accepts e.task).Perm
        ((r.entries.filter fun e => ({ server } : Filter).accepts e.task).map (Entry.revive now)) := by
    have hfilter := (entries_reopened_perm hperm now).filter
      fun e => ({ server } : Filter).accepts e.task
    simpa [List.filter_map, Function.comp_def, haccepts] using hfilter
  have hdistinct : ((reopened now kept).entries.map Entry.seq).Nodup := by
    have hplaces := (hn.reopened hroom hperm now).1.distinct
    simpa [places, Function.comp_def, Entry.place] using hplaces
  rw [matching, matching, listed_eq_map hentries
    (fun e he => hrank e (List.mem_filter.mp he).1)
    (hdistinct.sublist (List.filter_sublist.map _))]
  simp [Function.comp_def]

theorem sameListings_reopened : SameListings r (reopened now kept) := by
  intro server limit offset
  have hids := matching_reopened hperm now hn hroom server
  have hlength := congrArg List.length hids
  rw [List.length_map, List.length_map] at hlength
  refine ⟨?_, hlength⟩
  simp [list, List.map_take, List.map_drop, hids]

end Reopened

theorem newFirst_run {r : Registry} (h : r.Stored) (hn : r.Numbered) {after : List Event}
    (hroom : r.nextSeq.toNat + creations after ≤ seqRoom) : NewFirst r (r.run after) := by
  have hids : r.places.map Prod.fst = r.tasks.map Task.id := by
    simp [places, tasks, Function.comp_def, Entry.place]
  -- at first there are no other tasks than those of the older registry
  have hfirst : Precede (r.tasks.map Task.id) r := by
    refine ⟨fun id hid => hids ▸ hid, fun p _ q hq _ hnew => ?_⟩
    exact absurd (hids ▸ List.mem_map_of_mem hq) hnew
  intro t ht u hu hnew hold hstarted f htf huf
  obtain ⟨d, hd, rfl⟩ := List.mem_map.mp ht
  obtain ⟨e, he, rfl⟩ := List.mem_map.mp hu
  have hseq := (hfirst.run h hn hroom).earlier e.place (List.mem_map_of_mem he) d.place
    (List.mem_map_of_mem hd) hold hnew
  exact sublist_matching hd he htf huf hstarted hseq

end FirewallRollout.Registry
