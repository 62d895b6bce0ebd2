import FirewallRollout.Proofs.Registry.LastWrite
import FirewallRollout.Proofs.Registry.Order

/-!
# What a registry can come to

A registry in memory or in a file of its own, after any creations, changes and new starts, of which
any may fail to be written. The numbers of its tasks stay those of their creations, so that they tell
which of two tasks was created first, also after a new start that has found only old rows.
-/
namespace FirewallRollout.Registry
open Storage (Database Row seqRoom keptSeq_of_lt)

/-- The registries that can be come to, with the creations that were tried on the way: each with the
identifier of the task, unless it was refused. -/
inductive Reached : List (Option String) → Registry → Prop
  | memory : Reached [] empty
  | file (now : Int64) : Reached [] (opened now)
  | created {tries : List (Option String)} {r r' : Registry} {t : Task} {fails : Bool}
      (before : Reached tries r) (create : (r.allowing !fails).create t = (.ok t, r')) :
      Reached (tries ++ [some t.id]) r'
  | refused {tries : List (Option String)} {r r' : Registry} {t : Task} {fails : Bool} {e : Error}
      (before : Reached tries r) (create : (r.allowing !fails).create t = (.error e, r')) :
      Reached (tries ++ [none]) r'
  | updated {tries : List (Option String)} {r : Registry} (before : Reached tries r) (id : String)
      (m : Task.Amendment) (fails : Bool) : Reached tries (r.attempt ⟨.update id m, fails⟩)
  | reopened {tries : List (Option String)} {r r' : Registry} {fails : Bool} {now : Int64}
      {ended : Nat} (before : Reached tries r) (own : r.database.isSome = true)
      (start : (r.allowing !fails).reopen now = .ok (r', ended)) : Reached tries r'

/-- Each task has a row, which gives its number if it can be read, and there are no other rows. -/
structure Tracks (r : Registry) : Prop where
  row : ∀ {id e}, r.find? id = some e →
    ∃ row, r.row? id = some row ∧ ∀ {seq t}, row.read = .ok (seq, t) → seq = e.seq
  taskless : ∀ {id}, r.find? id = none → r.row? id = none

/-- The tasks are those that were created, with numbers in the order of creation. -/
structure Kept (tries : List (Option String)) (r : Registry) : Prop where
  ids : (r.places.map Prod.fst).Nodup
  numbered : r.Numbered
  next : r.nextSeq.toNat ≤ tries.length
  all : (r.places.map Prod.fst).Perm (tries.filterMap fun id => id)
  ordered : ∀ p ∈ r.places, ∀ q ∈ r.places, p.2 < q.2 → [some p.1, some q.1].Sublist tries
  backing : r.database = none ∨ r.Backed ∧ r.Tracks

/-! ## The rows -/

section Rows
variable {r r' : Registry}

/-- A registry in memory stays there. -/
theorem database_create_of_none (h : r.database = none) (t : Task) :
    (r.create t).2.database = none := by
  unfold create
  split
  · exact h
  · simp [persist, h]

theorem database_amend_of_none (h : r.database = none) (e : Entry) (t : Task) :
    (r.amend e t).database = none := by
  unfold amend
  split
  · exact h
  · simp [store, persist, h]

/-- A change that is made, or leaves everything as it is. -/
theorem perform_update (r : Registry) (id : String) (m : Task.Amendment) :
    r.perform (.update id m) = r ∨
      ∃ e t, t.id = e.task.id ∧ r.perform (.update id m) = r.amend e t := by
  cases hresult : (r.update id m.change).1 with
  | error error => exact .inl (update_error hresult)
  | ok =>
    obtain ⟨e, t, -, hchange, hafter⟩ := update_eq_ok_iff.mp (Prod.ext hresult rfl)
    exact .inr ⟨e, t, m.keeps hchange, hafter⟩

theorem database_attempt_of_none (h : r.database = none) (a : Attempt) :
    (r.attempt a).database = none := by
  have hnone : (r.allowing !a.fails).database = none := by simp [allowing, h]
  obtain ⟨call, fails⟩ := a
  cases call with
  | create t => exact database_create_of_none hnone t
  | update id m =>
    rcases perform_update (r.allowing !fails) id m with hsame | ⟨e, t, -, hafter⟩
    · exact (congrArg database hsame).trans hnone
    · exact (congrArg database hafter).trans (database_amend_of_none hnone e t)

/-- A row that is written has the number of its task, as far as the column has room for it. -/
theorem Performed.tracks {fails : Bool} (h : Performed r fails r') (ht : r.Tracks)
    (hroom : ∀ e ∈ r'.entries, e.seq.toNat < seqRoom) : r'.Tracks where
  row {id e'} he' := by
    by_cases hwritten : fails = false ∧ r'.find? id ≠ r.find? id
    · obtain ⟨e, he, hrow⟩ := h.recorded hwritten.1 hwritten.2
      obtain rfl := Option.some.inj (he.symm.trans he')
      refine ⟨e.row, hrow, fun {seq t} hread => ?_⟩
      rw [Entry.row, Row.read_ofTask,
        keptSeq_of_lt (hroom e (List.mem_of_find?_eq_some he))] at hread
      exact (Prod.mk.inj (Except.ok.inj hread)).1.symm
    · have hidle : fails = true ∨ r'.find? id = r.find? id := by
        cases fails <;> simp_all
      cases hfind : r.find? id with
      | none =>
        -- a new task that was not written would be one that nothing has changed
        rw [h.born hfind he', hfind, he'] at hidle
        simp at hidle
      | some e =>
        obtain ⟨row, hrow, hseq⟩ := ht.row hfind
        obtain ⟨e'', he'', hsame⟩ := h.grows hfind
        obtain rfl := Option.some.inj (he''.symm.trans he')
        exact ⟨row, (h.untouched hidle).trans hrow, fun hread => (hseq hread).trans hsame.symm⟩
  taskless {id} hnone := by
    have hbefore := h.find?_eq_none hnone
    rw [h.untouched (.inr (hnone.trans hbefore.symm))]
    exact ht.taskless hbefore

theorem Opened.tracks (h : Opened r) : r.Tracks where
  row {id e} he := by
    obtain ⟨row, hrow, hwhole⟩ := h.row he
    refine ⟨row, hrow, fun {seq t} hseq => ?_⟩
    rw [hseq] at hwhole
    exact (Prod.mk.inj (Except.ok.inj hwhole)).1
  taskless := h.taskless

theorem seq_of_readRow {now : Int64} {row : Row} {x : UInt64 × Task × Bool}
    (h : readRow now row = .ok x) : ∃ t, row.read = .ok (x.1, t) := by
  cases hread : row.read with
  | error bad => simp [readRow, hread] at h
  | ok stored =>
    obtain ⟨seq, t⟩ := stored
    obtain rfl : (seq, restore now t) = x := by simpa [readRow, hread] using h
    exact ⟨t, rfl⟩

/-- A new start that succeeds finds each task at its place. -/
theorem Tracks.place_openDatabase {db : Database} {now : Int64} {ended : Nat} (ht : r.Tracks)
    (hdb : ∀ id, db.row? id = r.row? id) (h : openDatabase db now = .ok (r', ended)) (id : String) :
    (r'.find? id).map Entry.place = (r.find? id).map Entry.place := by
  rw [openDatabase_eq] at h
  obtain ⟨opened, hopened, h⟩ := bind_ok h
  obtain ⟨written, -, h⟩ := bind_ok h
  obtain ⟨rfl, -⟩ := Prod.mk.inj (Except.ok.inj h)
  let idOf : UInt64 × Task × Bool → String := fun x => x.2.1.id
  have hread : (r.row? id).map (readRow now) = (opened.find? (idOf · == id)).map .ok := by
    rw [← hdb]
    exact find?_of_mapM hopened id
  have hentry : Registry.find? { entries := opened.map fun x => { seq := x.1, task := x.2.1 } } id =
      (opened.find? (idOf · == id)).map fun x => { seq := x.1, task := x.2.1 } := by
    rw [Registry.find?, List.find?_map]
    rfl
  change (Registry.find? { entries := _ } id).map Entry.place = _
  rw [hentry]
  cases hfind : r.find? id with
  | none =>
    rw [ht.taskless hfind] at hread
    rw [Option.map_eq_none_iff.mp hread.symm]
    rfl
  | some e =>
    obtain ⟨row, hrow, hseq⟩ := ht.row hfind
    rw [hrow, Option.map_some] at hread
    obtain ⟨x, hx, hok⟩ := Option.map_eq_some_iff.mp hread.symm
    obtain ⟨t, hwhole⟩ := seq_of_readRow hok.symm
    rw [hx]
    have hid : idOf x = e.task.id := (Keyed.key_of_find? idOf hx).trans (id_of_find? hfind).symm
    exact congrArg some (Prod.ext hid (hseq hwhole))

theorem find?_places (r : Registry) (id : String) :
    r.places.find? (·.1 == id) = (r.find? id).map Entry.place := by
  rw [places, List.find?_map, Registry.find?]
  rfl

/-- All tasks are there again, and the next one gets a place behind them. -/
theorem Tracks.places_openDatabase {db : Database} {now : Int64} {ended : Nat} (ht : r.Tracks)
    (hids : (r.places.map Prod.fst).Nodup) (hdb : ∀ id, db.row? id = r.row? id)
    (hkeys : db.taskIds.Nodup) (h : openDatabase db now = .ok (r', ended)) :
    r'.places.Perm r.places ∧ r'.nextSeq = seqAfter r'.entries := by
  have hplace := ht.place_openDatabase hdb h
  rw [openDatabase_eq] at h
  obtain ⟨opened, hopened, h⟩ := bind_ok h
  obtain ⟨written, -, h⟩ := bind_ok h
  obtain ⟨rfl, -⟩ := Prod.mk.inj (Except.ok.inj h)
  have hopenedIds : (opened.map (·.2.1.id)).Nodup := by
    rw [ids_of_mapM hopened]
    exact hkeys
  refine ⟨Keyed.perm_of_find? Prod.fst ?_ hids fun id => ?_, rfl⟩
  · simpa [places, Entry.place, Function.comp_def] using hopenedIds
  · rw [find?_places, find?_places, hplace]

end Rows

/-! ## The places -/

section Places
variable {tries : List (Option String)} {r r' : Registry}

theorem Kept.tried (h : Kept tries r) {p : String × UInt64} (hp : p ∈ r.places) :
    some p.1 ∈ tries := by
  obtain ⟨id, hid, hsame⟩ := List.mem_filterMap.mp (h.all.mem_iff.mp (List.mem_map_of_mem hp))
  exact hsame ▸ hid

theorem Kept.backing_attempt (h : Kept tries r) (a : Attempt)
    (hroom : ∀ e ∈ (r.attempt a).entries, e.seq.toNat < seqRoom) :
    (r.attempt a).database = none ∨ (r.attempt a).Backed ∧ (r.attempt a).Tracks := by
  rcases h.backing with hnone | ⟨hbacked, htracks⟩
  · exact .inl (database_attempt_of_none hnone a)
  · have hperformed := hbacked.performed a
    exact .inr ⟨hperformed.backed, hperformed.tracks htracks hroom⟩

theorem Kept.created {t : Task} {fails : Bool} (h : Kept tries r)
    (hroom : tries.length + 1 ≤ seqRoom)
    (hcreate : (r.allowing !fails).create t = (.ok t, r')) : Kept (tries ++ [some t.id]) r' := by
  obtain rfl : r.attempt ⟨.create t, fails⟩ = r' := congrArg Prod.snd hcreate
  obtain ⟨-, hfree, -, hentries⟩ := create_ok hcreate
  have hnext : r.nextSeq.toNat + 1 ≤ seqRoom := by
    have := h.next
    omega
  have hnumbered : (r.attempt ⟨.create t, fails⟩).Numbered :=
    Numbered.create (r := r.allowing !fails) ⟨h.numbered.distinct, h.numbered.below⟩ hnext t
  have hsucc : (r.attempt ⟨.create t, fails⟩).nextSeq.toNat = r.nextSeq.toNat + 1 := by
    have hstep : (r.attempt ⟨.create t, fails⟩).nextSeq = r.nextSeq + 1 :=
      nextSeq_create (r.allowing !fails) t
    rw [hstep, toNat_succ_of_room hnext]
  have hplaces : (r.attempt ⟨.create t, fails⟩).places = r.places ++ [(t.id, r.nextSeq)] := by
    rw [places, hentries, List.map_append]
    rfl
  refine ⟨?_, hnumbered, ?_, ?_, ?_, h.backing_attempt _ ?_⟩
  · have hnew : t.id ∉ r.places.map Prod.fst := by
      intro hmem
      obtain ⟨p, hp, hid⟩ := List.mem_map.mp hmem
      obtain ⟨e, he, rfl⟩ := List.mem_map.mp hp
      exact List.find?_eq_none.mp hfree e he (beq_iff_eq.mpr hid)
    rw [hplaces, List.map_append]
    refine List.nodup_append.mpr ⟨h.ids, List.nodup_singleton _, fun id hid id' hid' => ?_⟩
    obtain rfl := List.mem_singleton.mp hid'
    exact ne_of_mem_of_not_mem hid hnew
  · rw [hsucc, List.length_append]
    exact Nat.succ_le_succ h.next
  · rw [hplaces, List.map_append, List.filterMap_append]
    exact h.all.append_right [t.id]
  · rw [hplaces]
    intro p hp q hq hlt
    rcases List.mem_append.mp hp with hp | hp
    · rcases List.mem_append.mp hq with hq | hq
      · exact (h.ordered p hp q hq hlt).trans (List.sublist_append_left _ _)
      · obtain rfl := List.mem_singleton.mp hq
        exact (List.singleton_sublist.mpr (h.tried hp)).append_right [some t.id]
    · -- nothing comes after the newest
      obtain rfl := List.mem_singleton.mp hp
      rcases List.mem_append.mp hq with hq | hq
      · exact absurd hlt (UInt64.not_lt.mpr (UInt64.le_of_lt (h.numbered.below q hq)))
      · obtain rfl := List.mem_singleton.mp hq
        exact absurd hlt (UInt64.lt_irrefl _)
  · exact fun e he => hnumbered.seq_lt (hsucc ▸ hnext) he

/-- Where no task is created, the next place may move with the tries, or back to those taken. -/
theorem Kept.of_places {tries' : List (Option String)} (h : Kept tries r)
    (htries : tries.Sublist tries')
    (hborn : tries'.filterMap (fun id => id) = tries.filterMap fun id => id)
    (hplaces : r'.places.Perm r.places) (hbelow : ∀ p ∈ r'.places, p.2 < r'.nextSeq)
    (hnext : r'.nextSeq.toNat ≤ tries'.length)
    (hbacking : r'.database = none ∨ r'.Backed ∧ r'.Tracks) : Kept tries' r' where
  ids := (hplaces.map Prod.fst).nodup_iff.mpr h.ids
  numbered := ⟨(hplaces.map Prod.snd).nodup_iff.mpr h.numbered.distinct, hbelow⟩
  next := hnext
  all := hborn ▸ (hplaces.map Prod.fst).trans h.all
  ordered p hp q hq hlt :=
    (h.ordered p (hplaces.mem_iff.mp hp) q (hplaces.mem_iff.mp hq) hlt).trans htries
  backing := hbacking

theorem Kept.refused {t : Task} {fails : Bool} {e : Error} (h : Kept tries r)
    (hroom : tries.length + 1 ≤ seqRoom)
    (hcreate : (r.allowing !fails).create t = (.error e, r')) : Kept (tries ++ [none]) r' := by
  obtain rfl : r.attempt ⟨.create t, fails⟩ = r' := congrArg Prod.snd hcreate
  have hnext : r.nextSeq.toNat ≤ tries.length := h.next
  have hafter : r.attempt ⟨.create t, fails⟩ =
      { r.allowing !fails with nextSeq := r.nextSeq + 1 } := create_error hcreate
  have hentries : (r.attempt ⟨.create t, fails⟩).entries = r.entries := by
    rw [hafter]
    rfl
  have hplaces : (r.attempt ⟨.create t, fails⟩).places = r.places := by
    rw [places, hentries, places]
  have hsucc : (r.attempt ⟨.create t, fails⟩).nextSeq.toNat = r.nextSeq.toNat + 1 := by
    rw [hafter, toNat_succ_of_room (by omega)]
  have hbelow : ∀ p ∈ r.places, p.2 < (r.attempt ⟨.create t, fails⟩).nextSeq := by
    intro p hp
    have := UInt64.lt_iff_toNat_lt.mp (h.numbered.below p hp)
    rw [UInt64.lt_iff_toNat_lt, hsucc]
    omega
  refine h.of_places (List.sublist_append_left _ _) ?_ (.of_eq hplaces) (hplaces ▸ hbelow) ?_
    (h.backing_attempt _ fun e he => ?_)
  · rw [List.filterMap_append]
    exact List.append_nil _
  · rw [hsucc, List.length_append]
    exact Nat.succ_le_succ hnext
  · exact h.numbered.seq_lt (by omega) (hentries ▸ he)

theorem Kept.updated (h : Kept tries r) (hroom : tries.length ≤ seqRoom) (id : String)
    (m : Task.Amendment) (fails : Bool) : Kept tries (r.attempt ⟨.update id m, fails⟩) := by
  have hnext : r.nextSeq.toNat ≤ tries.length := h.next
  obtain ⟨hplaces, hseq⟩ : (r.attempt ⟨.update id m, fails⟩).places = r.places ∧
      (r.attempt ⟨.update id m, fails⟩).nextSeq = r.nextSeq := by
    rcases perform_update (r.allowing !fails) id m with hsame | ⟨e, t, hid, hafter⟩
    · have hidle : r.attempt ⟨.update id m, fails⟩ = r.allowing !fails := hsame
      rw [hidle]
      exact ⟨rfl, rfl⟩
    · exact ⟨(congrArg places hafter).trans (places_amend hid),
        (congrArg nextSeq hafter).trans (nextSeq_amend _ e t)⟩
  have hnumbered : (r.attempt ⟨.update id m, fails⟩).Numbered :=
    ⟨hplaces ▸ h.numbered.distinct, hplaces ▸ hseq ▸ h.numbered.below⟩
  exact h.of_places (.refl _) rfl (.of_eq hplaces) hnumbered.below (hseq ▸ hnext)
    (h.backing_attempt _ fun e he => hnumbered.seq_lt (hseq ▸ (by omega)) he)

theorem Kept.reopened {fails : Bool} {now : Int64} {ended : Nat} (h : Kept tries r)
    (own : r.database.isSome = true)
    (hstart : (r.allowing !fails).reopen now = .ok (r', ended)) : Kept tries r' := by
  rcases h.backing with hnone | ⟨hbacked, htracks⟩
  · rw [hnone] at own
    cases own
  · obtain ⟨db, hdb, -, hkeys⟩ := hbacked.allowing !fails
    rw [reopen, hdb, Option.getD_some] at hstart
    have hrow : ∀ id, db.row? id = r.row? id := by
      intro id
      rw [← r.row?_allowing (!fails) id, row?, hdb, Option.bind_some]
    obtain ⟨hplaces, hseq⟩ := htracks.places_openDatabase h.ids hrow hkeys hstart
    have hbelow : ∀ e ∈ r'.entries, e.seq < r.nextSeq := fun e he =>
      h.numbered.below e.place (hplaces.mem_iff.mp (List.mem_map_of_mem he))
    have hopened := opened_openDatabase hkeys hstart
    refine h.of_places (.refl _) rfl hplaces (fun p hp => ?_) ?_
      (.inr ⟨hopened.backed, hopened.tracks⟩)
    · obtain ⟨e, he, rfl⟩ := List.mem_map.mp hp
      exact hseq ▸ lt_seqAfter hbelow he
    · have hle := UInt64.le_iff_toNat_le.mp (seqAfter_le hbelow)
      rw [hseq]
      exact hle.trans h.next

end Places

/-- A registry without tasks, in memory or newly opened. -/
theorem kept_nil {r : Registry} (hentries : r.entries = []) (hnext : r.nextSeq = 0)
    (hbacking : r.database = none ∨ r.Backed ∧ r.Tracks) : Kept [] r := by
  have hplaces : r.places = [] := by
    rw [places, hentries]
    rfl
  refine ⟨?_, ⟨?_, ?_⟩, ?_, ?_, ?_, hbacking⟩ <;> simp [hplaces, hnext]

/-- Whatever happens to a registry, as long as its column of numbers has room for the creations. -/
theorem Reached.kept {tries : List (Option String)} {r : Registry} (h : Reached tries r)
    (hroom : tries.length ≤ seqRoom) : Kept tries r := by
  induction h with
  | memory => exact kept_nil rfl rfl (.inl rfl)
  | file now =>
    have hstart : openDatabase {} now = .ok (opened now, 0) := rfl
    have hkeys : ({} : Database).taskIds.Nodup := List.nodup_nil
    have hopened := opened_openDatabase hkeys hstart
    exact kept_nil rfl rfl (.inr ⟨hopened.backed, hopened.tracks⟩)
  | created before create ih =>
    rw [List.length_append] at hroom
    exact (ih (by omega)).created hroom create
  | refused before create ih =>
    rw [List.length_append] at hroom
    exact (ih (by omega)).refused hroom create
  | updated before id m fails ih => exact (ih hroom).updated hroom id m fails
  | reopened before own start ih => exact (ih hroom).reopened own start

end FirewallRollout.Registry
