import FirewallRollout.Proofs.Registry.Lookup
import Mathlib.Data.List.Pairwise

/-!
# Tasks that have not ended

A registry may hold ended tasks under one identifier twice, as a list of stored rows may; it never
comes to hold a second task under the identifier of one that has not ended. Such a task is the one
that is looked up, and a change to it changes nothing else.
-/
namespace FirewallRollout.Registry

/-- Two entries share an identifier only when both of their tasks have ended. -/
def Entry.Apart (a b : Entry) : Prop :=
  a.task.id = b.task.id → a.task.isTerminal = true ∧ b.task.isTerminal = true

instance : Std.Symm Entry.Apart := ⟨fun _ _ h hid => (h hid.symm).symm⟩

/-- No task shares its identifier with one that has not ended. -/
def Distinct (r : Registry) : Prop := r.entries.Pairwise Entry.Apart

/-- The tasks of a server that have not ended. -/
def inFlight (r : Registry) (server : String) : List Task :=
  r.tasks.filter fun t => t.server == server && !t.isTerminal

theorem distinct_of_isTerminal {r : Registry} (h : ∀ t ∈ r.tasks, t.isTerminal = true) :
    r.Distinct := by
  refine List.pairwise_of_forall_mem_list fun a ha b hb _ => ⟨h _ ?_, h _ ?_⟩
  · exact List.mem_map_of_mem ha
  · exact List.mem_map_of_mem hb

theorem mem_of_find? {r : Registry} {id : String} {e : Entry} (h : r.find? id = some e) :
    e ∈ r.entries :=
  List.mem_of_find?_eq_some h

/-- What has the identifier of an active task is that task. -/
theorem Distinct.eq_of_id {r : Registry} (hr : r.Distinct) {a b : Entry} (ha : a ∈ r.entries)
    (hb : b ∈ r.entries) (hid : a.task.id = b.task.id) (hactive : a.task.isTerminal = false) :
    a = b := by
  by_contra hne
  have hended := hr.forall ha hb hne hid
  rw [hactive] at hended
  cases hended.1

theorem Distinct.find?_of_mem {r : Registry} (hr : r.Distinct) {e : Entry} (he : e ∈ r.entries)
    (hactive : e.task.isTerminal = false) : r.find? e.task.id = some e := by
  cases h : r.find? e.task.id with
  | none =>
    have hnone := List.find?_eq_none.mp h e he
    simp at hnone
  | some d => rw [hr.eq_of_id he (mem_of_find? h) (id_of_find? h).symm hactive]

/-- A new task is the only one under its identifier. -/
theorem Distinct.create {r r' : Registry} {t u : Task} (hr : r.Distinct)
    (h : r.create t = (.ok u, r')) : r'.Distinct := by
  obtain ⟨rfl, hfree, -, hentries⟩ := create_ok h
  rw [Distinct, hentries, List.pairwise_append]
  refine ⟨hr, List.pairwise_singleton _ _, fun a ha b hb hid => ?_⟩
  obtain rfl := List.mem_singleton.mp hb
  have hne := List.find?_eq_none.mp hfree a ha
  exact absurd hid (by simpa using hne)

/-- The entries after a change that leaves an ended task as it is. -/
theorem mem_amend {r : Registry} (hr : r.Distinct) {id : String} {e x : Entry} {t : Task}
    (he : r.find? id = some e) (hfrozen : e.task.isTerminal = true → t = e.task)
    (hx : x ∈ (r.amend e t).entries) :
    x = { e with task := t } ∨ x ∈ r.entries ∧ (x.task.isTerminal = true ∨ x.task.id ≠ e.task.id) := by
  unfold amend at hx
  split at hx
  · next heq =>
    by_cases hid : x.task.id = e.task.id
    · cases hactive : x.task.isTerminal with
      | true => exact .inr ⟨hx, .inl rfl⟩
      | false =>
        obtain rfl := hr.eq_of_id hx (mem_of_find? he) hid hactive
        exact .inl (by rw [heq])
    · exact .inr ⟨hx, .inr hid⟩
  · next hne =>
    have hactive : e.task.isTerminal = false :=
      Bool.eq_false_iff.mpr fun hended => hne (hfrozen hended)
    obtain ⟨y, hy, rfl⟩ := List.mem_map.mp hx
    by_cases hid : y.task.id = e.task.id
    · obtain rfl := hr.eq_of_id (mem_of_find? he) hy hid.symm hactive
      exact .inl (if_pos (by simp))
    · rw [if_neg (by simpa using hid)]
      exact .inr ⟨hy, .inr hid⟩

theorem Distinct.amend {r : Registry} (hr : r.Distinct) {id : String} {e : Entry} {t : Task}
    (he : r.find? id = some e) (hid : t.id = e.task.id)
    (hfrozen : e.task.isTerminal = true → t = e.task) : (r.amend e t).Distinct := by
  unfold Registry.amend
  split
  · exact hr
  · next hne =>
    have hactive : e.task.isTerminal = false :=
      Bool.eq_false_iff.mpr fun hended => hne (hfrozen hended)
    -- two entries under one identifier have ended, so neither is the one that changes
    have hother : ∀ x ∈ r.entries, x.task.isTerminal = true → x.task.id ≠ e.task.id := by
      intro x hx hended hxe
      obtain rfl := hr.eq_of_id (mem_of_find? he) hx hxe.symm hactive
      rw [hended] at hactive
      cases hactive
    have hkeep : ∀ x : Entry,
        (if x.task.id == e.task.id then { x with task := t } else x).task.id = x.task.id := by
      intro x
      split <;> simp_all
    refine List.pairwise_map.mpr (hr.imp_of_mem fun {a b} ha hb hapart hab => ?_)
    rw [hkeep, hkeep] at hab
    obtain ⟨hended, hended'⟩ := hapart hab
    rw [if_neg (by simpa using hother a ha hended), if_neg (by simpa using hother b hb hended')]
    exact ⟨hended, hended'⟩

theorem mem_inFlight {r : Registry} {server : String} {t : Task} :
    t ∈ r.inFlight server ↔
      (∃ e ∈ r.entries, e.task = t) ∧ t.server = server ∧ t.isTerminal = false := by
  simp [inFlight, tasks]

theorem inFlight_eq_map (r : Registry) (server : String) :
    r.inFlight server =
      (r.entries.filter fun e => e.task.server == server && !e.task.isTerminal).map Entry.task := by
  rw [inFlight, tasks, List.filter_map]
  rfl

/-- With one task in flight at most, that task is the one that is active. -/
theorem activeFor_eq_head? {r : Registry} {server : String} (h : (r.inFlight server).length ≤ 1) :
    r.activeFor server = (r.inFlight server).head? := by
  rw [inFlight_eq_map] at h ⊢
  unfold activeFor
  revert h
  cases r.entries.filter fun e => e.task.server == server && !e.task.isTerminal with
  | nil => exact fun _ => rfl
  | cons e rest =>
    intro h
    obtain rfl : rest = [] := by simpa using h
    rfl

/-- Tasks in flight that all have one identifier are one task at most. -/
theorem Distinct.length_inFlight_le_one {r : Registry} (hr : r.Distinct) {server : String}
    {id : String} (hid : ∀ t ∈ r.inFlight server, t.id = id) : (r.inFlight server).length ≤ 1 := by
  rw [inFlight_eq_map] at hid ⊢
  have hsub : (r.entries.filter fun e => e.task.server == server && !e.task.isTerminal).Pairwise
      Entry.Apart := hr.sublist List.filter_sublist
  have hactive : ∀ e ∈ r.entries.filter fun e => e.task.server == server && !e.task.isTerminal,
      e.task.isTerminal = false := by
    intro e he
    have hkept := (List.mem_filter.mp he).2
    simp only [Bool.and_eq_true, Bool.not_eq_true'] at hkept
    exact hkept.2
  revert hid hsub hactive
  cases r.entries.filter fun e => e.task.server == server && !e.task.isTerminal with
  | nil => simp
  | cons a rest =>
    cases rest with
    | nil => simp
    | cons b rest =>
      intro hid hsub hactive
      have hab := (List.pairwise_cons.mp hsub).1 b List.mem_cons_self
      have ha := hid a.task (by simp)
      have hb := hid b.task (by simp)
      have hended := (hab (ha.trans hb.symm)).1
      rw [hactive a List.mem_cons_self] at hended
      cases hended

end FirewallRollout.Registry
