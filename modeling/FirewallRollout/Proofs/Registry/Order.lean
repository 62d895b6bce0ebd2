import FirewallRollout.Proofs.Registry.Stored

/-!
# The order of creation over a run

A registered task keeps its place in the order of creation, and the next task gets a place after all
others. The database keeps the places too, for as long as its column of integers has room for them.
-/
namespace FirewallRollout.Registry
open Storage (keptSeq_of_lt seqRoom)

theorem toNat_succ {a : UInt64} (h : a.toNat + 1 < UInt64.size) : (a + 1).toNat = a.toNat + 1 := by
  rw [UInt64.toNat_add, UInt64.toNat_one]
  exact Nat.mod_eq_of_lt h

/-- The number after one that the column has room for. -/
theorem toNat_succ_of_room {a : UInt64} (h : a.toNat + 1 ≤ seqRoom) :
    (a + 1).toNat = a.toNat + 1 := by
  apply toNat_succ
  simp only [seqRoom] at h
  simp only [UInt64.size]
  omega

theorem succ_le_iff_of_lt {a b c : UInt64} (h : a < b) : a + 1 ≤ c ↔ a < c := by
  have hlt := UInt64.lt_iff_toNat_lt.mp h
  have hsize : b.toNat < UInt64.size := b.toNat_lt
  rw [UInt64.le_iff_toNat_le, UInt64.lt_iff_toNat_lt, toNat_succ (by omega)]
  omega

theorem max_seq_le_iff {a b c : UInt64} : max a b ≤ c ↔ a ≤ c ∧ b ≤ c := by
  have hmax : max a b = if a ≤ b then b else a := rfl
  simp only [hmax, UInt64.le_iff_toNat_le]
  split <;> omega

theorem seqAfter_le_iff {entries : List Entry} {bound : UInt64} :
    seqAfter entries ≤ bound ↔ ∀ e ∈ entries, e.seq + 1 ≤ bound := by
  have hfold : ∀ first : UInt64, entries.foldl (fun m e => max m (e.seq + 1)) first ≤ bound ↔
      first ≤ bound ∧ ∀ e ∈ entries, e.seq + 1 ≤ bound := by
    induction entries with
    | nil => simp
    | cons e entries ih =>
      intro first
      rw [List.foldl_cons, ih, max_seq_le_iff, List.forall_mem_cons, and_assoc]
  simp [seqAfter, hfold]

/-- The sequence after those of some entries is after each of them, and no later than it has to be. -/
theorem seqAfter_le {entries : List Entry} {bound : UInt64} (h : ∀ e ∈ entries, e.seq < bound) :
    seqAfter entries ≤ bound := by
  rw [seqAfter_le_iff]
  exact fun e he => (succ_le_iff_of_lt (h e he)).mpr (h e he)

theorem lt_seqAfter {entries : List Entry} {bound : UInt64} (h : ∀ e ∈ entries, e.seq < bound)
    {e : Entry} (he : e ∈ entries) : e.seq < seqAfter entries :=
  (succ_le_iff_of_lt (h e he)).mp (seqAfter_le_iff.mp (UInt64.le_refl _) e he)

/-- The identifier of a task with its place in the order of creation. -/
def Entry.place (e : Entry) : String × UInt64 := (e.task.id, e.seq)

def places (r : Registry) : List (String × UInt64) := r.entries.map Entry.place

/-- No two tasks have one place, and the next place is after all of them. -/
structure Numbered (r : Registry) : Prop where
  distinct : (r.places.map Prod.snd).Nodup
  below : ∀ p ∈ r.places, p.2 < r.nextSeq

@[simp] theorem nextSeq_create (r : Registry) (t : Task) :
    (r.create t).2.nextSeq = r.nextSeq + 1 := by
  unfold create
  split
  · rfl
  · split <;> rfl

theorem places_create (r : Registry) (t : Task) :
    (r.create t).2.places = r.places ∨
      r.find? t.id = none ∧ (r.create t).2.places = r.places ++ [(t.id, r.nextSeq)] := by
  cases hcreate : r.create t with
  | mk answer r' =>
    cases answer with
    | error e =>
      rw [create_error hcreate]
      exact .inl rfl
    | ok u =>
      obtain ⟨rfl, hfree, -, hentries⟩ := create_ok hcreate
      refine .inr ⟨hfree, ?_⟩
      simp [places, hentries, Entry.place]

@[simp] theorem nextSeq_amend (r : Registry) (e : Entry) (t : Task) :
    (r.amend e t).nextSeq = r.nextSeq := by
  unfold amend
  split <;> rfl

theorem places_amend {r : Registry} {e : Entry} {t : Task} (hid : t.id = e.task.id) :
    (r.amend e t).places = r.places := by
  unfold amend
  split
  · rfl
  · rw [places, store, List.map_map]
    apply List.map_congr_left
    intro x _
    by_cases hx : x.task.id = e.task.id <;> simp [hx, Entry.place, hid]

/-- The next place, and those that are taken, after a change of a task. -/
theorem places_update (r : Registry) (id : String) (m : Task.Mutation) :
    (r.handle (.update id m)).nextSeq = r.nextSeq ∧
      (r.handle (.update id m)).places = r.places := by
  rcases handle_update r id m with hsame | ⟨e, t, -, hchange, hafter⟩
  · rw [hsame]
    exact ⟨rfl, rfl⟩
  · rw [hafter, nextSeq_amend]
    exact ⟨rfl, places_amend (m.keeps hchange).1.1⟩

/-- An entry whose place the column has room for is read back with that place. -/
theorem Entry.revive_of_lt {e : Entry} (h : e.seq.toNat < seqRoom) (now : Int64) :
    e.revive now = { e with task := (restore now e.task).1 } := by
  rw [revive, keptSeq_of_lt h]

theorem Numbered.seq_lt {r : Registry} (h : r.Numbered) (hroom : r.nextSeq.toNat ≤ seqRoom)
    {e : Entry} (he : e ∈ r.entries) : e.seq.toNat < seqRoom := by
  have hlt := UInt64.lt_iff_toNat_lt.mp (h.below e.place (List.mem_map_of_mem he))
  exact Nat.lt_of_lt_of_le hlt hroom

theorem Numbered.places_reopened {r : Registry} (h : r.Numbered) (hroom : r.nextSeq.toNat ≤ seqRoom)
    {kept : List Entry} (hperm : (kept.map Entry.reread).Perm (r.entries.map Entry.reread))
    (now : Int64) : (reopened now kept).places.Perm r.places := by
  have hplaces : (r.entries.map (Entry.revive now)).map Entry.place = r.places := by
    rw [List.map_map]
    apply List.map_congr_left
    intro e he
    simp [Entry.revive_of_lt (h.seq_lt hroom he), Entry.place, (restore_sameRebuild now e.task).1]
  exact hplaces ▸ (entries_reopened_perm hperm now).map Entry.place

/-- The database keeps the order. -/
theorem Numbered.reopened {r : Registry} (h : r.Numbered) (hroom : r.nextSeq.toNat ≤ seqRoom)
    {kept : List Entry} (hperm : (kept.map Entry.reread).Perm (r.entries.map Entry.reread))
    (now : Int64) :
    (Registry.reopened now kept).Numbered ∧ (Registry.reopened now kept).nextSeq ≤ r.nextSeq := by
  have hplaces := h.places_reopened hroom hperm now
  have hbelow : ∀ e ∈ (Registry.reopened now kept).entries, e.seq < r.nextSeq := fun e he =>
    h.below e.place (hplaces.mem_iff.mp (List.mem_map_of_mem he))
  refine ⟨⟨?_, ?_⟩, seqAfter_le hbelow⟩
  · exact (hplaces.map Prod.snd).nodup_iff.mpr h.distinct
  · intro p hp
    obtain ⟨e, he, rfl⟩ := List.mem_map.mp hp
    exact lt_seqAfter hbelow he

/-- A new task comes after all others, if there is room for one more place. -/
theorem Numbered.create {r : Registry} (h : r.Numbered) (hroom : r.nextSeq.toNat + 1 ≤ seqRoom)
    (t : Task) : (r.create t).2.Numbered := by
  have hnext : r.nextSeq < r.nextSeq + 1 := by
    rw [UInt64.lt_iff_toNat_lt, toNat_succ_of_room hroom]
    omega
  have hbelow : ∀ p ∈ r.places, p.2 < r.nextSeq + 1 := fun p hp =>
    UInt64.lt_trans (h.below p hp) hnext
  rcases places_create r t with hsame | ⟨-, hnew⟩
  · refine ⟨by rw [hsame]; exact h.distinct, ?_⟩
    rw [hsame, nextSeq_create]
    exact hbelow
  · constructor
    · rw [hnew, List.map_append, List.nodup_append]
      refine ⟨h.distinct, by simp, ?_⟩
      intro seq hseq seq' hseq'
      obtain ⟨p, hp, rfl⟩ := List.mem_map.mp hseq
      obtain rfl := List.mem_singleton.mp hseq'
      exact UInt64.ne_of_lt (h.below p hp)
    · rw [hnew, nextSeq_create]
      intro p hp
      rcases List.mem_append.mp hp with hp | hp
      · exact hbelow p hp
      · obtain rfl := List.mem_singleton.mp hp
        exact hnext

/-- One event takes up one place at most. -/
theorem Numbered.handle {r : Registry} (h : r.Numbered) (hs : r.Stored) {event : Event}
    (hroom : r.nextSeq.toNat + creations [event] ≤ seqRoom) :
    (r.handle event).Numbered ∧
      (r.handle event).nextSeq.toNat ≤ r.nextSeq.toNat + creations [event] := by
  cases event with
  | create t counts =>
    refine ⟨h.create hroom t, ?_⟩
    have hroom : r.nextSeq.toNat + 1 ≤ seqRoom := hroom
    rw [Registry.handle, nextSeq_create, toNat_succ_of_room hroom]
    rfl
  | update id m =>
    obtain ⟨hnext, hplaces⟩ := places_update r id m
    exact ⟨⟨hplaces ▸ h.distinct, hplaces ▸ hnext ▸ h.below⟩, hnext ▸ Nat.le_refl _⟩
  | reopen now =>
    obtain ⟨kept, hreopen, -, hperm⟩ := hs.reopen now
    obtain ⟨hnumbered, hle⟩ := h.reopened hroom hperm now
    rw [Registry.handle, hreopen]
    exact ⟨hnumbered, UInt64.le_iff_toNat_le.mp hle⟩

theorem creations_cons (event : Event) (events : List Event) :
    creations (event :: events) = creations [event] + creations events := by
  simp [creations, List.countP_cons, Nat.add_comm]

theorem Numbered.run {r : Registry} (h : r.Numbered) (hs : r.Stored) {events : List Event}
    (hroom : r.nextSeq.toNat + creations events ≤ seqRoom) :
    (r.run events).Numbered ∧
      (r.run events).nextSeq.toNat ≤ r.nextSeq.toNat + creations events := by
  induction events generalizing r with
  | nil => exact ⟨h, Nat.le_refl _⟩
  | cons event events ih =>
    rw [creations_cons] at hroom ⊢
    have hfirst : r.nextSeq.toNat + creations [event] ≤ seqRoom := by omega
    obtain ⟨hnumbered, hle⟩ := h.handle hs hfirst
    obtain ⟨hlast, hle'⟩ := ih hnumbered (hs.handle event) (by omega)
    refine ⟨hlast, ?_⟩
    rw [Registry.run, List.foldl_cons]
    exact hle'.trans (by omega)

theorem numbered_opened (now : Int64) : (opened now).Numbered where
  distinct := List.nodup_nil
  below := by
    intro p hp
    cases hp

/-- The places of a run are as many as the creations that were tried. -/
theorem numbered_run (first : Int64) {before : List Event} (hroom : creations before ≤ seqRoom) :
    ((opened first).run before).Numbered ∧
      ((opened first).run before).nextSeq.toNat ≤ creations before := by
  have hzero : (opened first).nextSeq.toNat = 0 := rfl
  have hrun : (opened first).nextSeq.toNat + creations before ≤ seqRoom := by omega
  obtain ⟨hn, hle⟩ := (numbered_opened first).run (stored_opened first) hrun
  exact ⟨hn, by omega⟩

/-- The tasks of some identifiers are there, and every other task was created after them. -/
structure Precede (ids : List String) (r : Registry) : Prop where
  there : ∀ id ∈ ids, id ∈ r.places.map Prod.fst
  earlier : ∀ p ∈ r.places, ∀ q ∈ r.places, p.1 ∈ ids → q.1 ∉ ids → p.2 < q.2

theorem Precede.of_perm {ids : List String} {r r' : Registry} (h : Precede ids r)
    (hplaces : r'.places.Perm r.places) : Precede ids r' where
  there id hid := (hplaces.map Prod.fst).mem_iff.mpr (h.there id hid)
  earlier p hp q hq := h.earlier p (hplaces.mem_iff.mp hp) q (hplaces.mem_iff.mp hq)

theorem Precede.create {ids : List String} {r : Registry} (h : Precede ids r) (hn : r.Numbered)
    (t : Task) : Precede ids (r.create t).2 := by
  rcases places_create r t with hsame | ⟨hfree, hnew⟩
  · exact h.of_perm (.of_eq hsame)
  · -- an identifier that was free is none of those that are there
    have hunknown : t.id ∉ ids := by
      intro hid
      obtain ⟨p, hp, hpid⟩ := List.mem_map.mp (h.there t.id hid)
      obtain ⟨e, he, rfl⟩ := List.mem_map.mp hp
      exact List.find?_eq_none.mp hfree e he (beq_iff_eq.mpr hpid)
    constructor
    · intro id hid
      rw [hnew, List.map_append]
      exact List.mem_append_left _ (h.there id hid)
    · intro p hp q hq hpid hqid
      rw [hnew] at hp hq
      rcases List.mem_append.mp hp with hp | hp
      · rcases List.mem_append.mp hq with hq | hq
        · exact h.earlier p hp q hq hpid hqid
        · obtain rfl := List.mem_singleton.mp hq
          exact hn.below p hp
      · obtain rfl := List.mem_singleton.mp hp
        exact absurd hpid hunknown

theorem Precede.handle {ids : List String} {r : Registry} (h : Precede ids r) (hs : r.Stored)
    (hn : r.Numbered) {event : Event} (hroom : r.nextSeq.toNat + creations [event] ≤ seqRoom) :
    Precede ids (r.handle event) := by
  cases event with
  | create t counts => exact h.create hn t
  | update id m => exact h.of_perm (.of_eq (places_update r id m).2)
  | reopen now =>
    obtain ⟨kept, hreopen, -, hperm⟩ := hs.reopen now
    rw [Registry.handle, hreopen]
    exact h.of_perm (hn.places_reopened hroom hperm now)

theorem Precede.run {ids : List String} {r : Registry} (h : Precede ids r) (hs : r.Stored)
    (hn : r.Numbered) {events : List Event}
    (hroom : r.nextSeq.toNat + creations events ≤ seqRoom) : Precede ids (r.run events) := by
  induction events generalizing r with
  | nil => exact h
  | cons event events ih =>
    rw [creations_cons] at hroom
    have hfirst : r.nextSeq.toNat + creations [event] ≤ seqRoom := by omega
    obtain ⟨hnumbered, hle⟩ := hn.handle hs hfirst
    exact ih (h.handle hs hn hfirst) (hs.handle event) hnumbered (by omega)

end FirewallRollout.Registry
