import FirewallRollout.Assoc
import Mathlib.Algebra.BigOperators.Group.List.Basic
import Mathlib.Algebra.GroupWithZero.Nat
import Mathlib.Data.List.Nodup

/-!
# Lists under keys

What is found under a key after one entry was changed, dropped or added. Leases, fingerprints,
workers and registered tasks are all kept in such lists.
-/
namespace FirewallRollout

namespace Keyed
variable {α κ : Type} [DecidableEq κ] (key : α → κ)

/-- Changing the entry under one key leaves what is found under every other. -/
theorem find?_map_at (l : List α) (f : α → α) (hkey : ∀ x, key (f x) = key x) (k k' : κ) :
    (l.map fun x => if key x == k then f x else x).find? (key · == k') =
      if k' = k then (l.find? (key · == k)).map f else l.find? (key · == k') := by
  induction l with
  | nil => simp
  | cons x l ih =>
    simp only [List.map_cons, List.find?_cons, ih]
    by_cases hx : key x = k
    · subst hx
      by_cases hk : k' = key x
      · simp [hk, hkey]
      · simp [hk, hkey, beq_false_of_ne (Ne.symm hk)]
    · by_cases hk : k' = k
      · subst hk
        simp [beq_false_of_ne hx]
      · simp [hk, beq_false_of_ne hx]

/-- Dropping the entries under one key leaves what is found under every other. -/
theorem find?_filter_ne (l : List α) (k k' : κ) :
    (l.filter fun x => key x != k).find? (key · == k') =
      if k' = k then none else l.find? (key · == k') := by
  induction l with
  | nil => simp
  | cons x l ih =>
    by_cases hx : key x = k
    · subst hx
      rw [List.filter_cons_of_neg (by simp), ih, List.find?_cons]
      by_cases hk : k' = key x
      · simp [hk]
      · simp [hk, beq_false_of_ne (Ne.symm hk)]
    · rw [List.filter_cons_of_pos (by simp [hx]), List.find?_cons, List.find?_cons, ih]
      by_cases hk : k' = k
      · subst hk
        simp [beq_false_of_ne hx]
      · simp [hk]

/-- What is found after an entry took the place of the one with its key, or came last. -/
theorem find?_put (l : List α) (x : α) (k : κ) :
    (if l.any (key · == key x) then l.map fun y => if key y == key x then x else y
      else l ++ [x]).find? (key · == k) =
      if k = key x then some x else l.find? (key · == k) := by
  split
  · next hany =>
    have hmap : (l.map fun y => if key y == key x then x else y) =
        l.map fun y => if key y == key x then (if key y = key x then x else y) else y := by
      apply List.map_congr_left
      intro y _
      by_cases hy : key y = key x <;> simp [hy]
    obtain ⟨y, hy⟩ := Option.isSome_iff_exists.mp (List.find?_isSome.mpr (List.any_eq_true.mp hany))
    have hkey : key y = key x := by simpa using List.find?_some hy
    rw [hmap, find?_map_at key l (fun y => if key y = key x then x else y)
      (by intro y; split <;> simp_all), hy]
    simp [hkey]
  · next hany =>
    have hnone : l.find? (key · == key x) = none := by
      rw [List.find?_eq_none]
      exact fun y hy hyx => hany (List.any_eq_true.mpr ⟨y, hy, hyx⟩)
    rw [List.find?_append]
    by_cases hk : k = key x
    · simp [hk, hnone]
    · simp [hk, beq_false_of_ne (Ne.symm hk)]

/-- What is found under a key has that key. -/
theorem key_of_find? {l : List α} {k : κ} {x : α} (h : l.find? (key · == k) = some x) :
    key x = k := by
  simpa using List.find?_some h

/-- An entry that is the only one of its kind has one place. -/
theorem eq_of_filter_eq_singleton {p : α → Bool} {l : List α} {x a b : α} {i j : Nat}
    (h : l.filter p = [x]) (ha : l[i]? = some a) (hpa : p a = true) (hb : l[j]? = some b)
    (hpb : p b = true) : i = j := by
  induction l generalizing i j with
  | nil => cases h
  | cons y l ih =>
    by_cases hy : p y = true
    · rw [List.filter_cons_of_pos hy] at h
      have hnone : ∀ z ∈ l, ¬ p z = true := List.filter_eq_nil_iff.mp (List.cons.inj h).2
      cases i with
      | zero =>
        cases j with
        | zero => rfl
        | succ j => exact absurd hpb (hnone b (List.mem_of_getElem? hb))
      | succ i => exact absurd hpa (hnone a (List.mem_of_getElem? ha))
    · rw [List.filter_cons_of_neg hy] at h
      cases i with
      | zero =>
        obtain rfl := Option.some.inj ha
        exact absurd hpa hy
      | succ i =>
        cases j with
        | zero =>
          obtain rfl := Option.some.inj hb
          exact absurd hpb hy
        | succ j => rw [ih h ha hb]

/-- Under keys of their own, entries are found. -/
theorem find?_of_mem {l : List α} (h : (l.map key).Nodup) {x : α} (hx : x ∈ l) :
    l.find? (key · == key x) = some x := by
  induction l with
  | nil => cases hx
  | cons y l ih =>
    obtain ⟨hnew, hl⟩ := List.nodup_cons.mp h
    rcases List.mem_cons.mp hx with rfl | hx
    · simp
    · have hne : key y ≠ key x := fun hyx => hnew (hyx ▸ List.mem_map_of_mem hx)
      rw [List.find?_cons, beq_false_of_ne hne, ih hl hx]

/-- Under keys of their own, an entry is found among some of them exactly when it is one of these. -/
theorem find?_filter {l : List α} (h : (l.map key).Nodup) (p : α → Bool) (k : κ) :
    (l.filter p).find? (key · == k) = (l.find? (key · == k)).filter p := by
  induction l with
  | nil => rfl
  | cons x l ih =>
    obtain ⟨hnew, hl⟩ := List.nodup_cons.mp h
    by_cases hx : key x = k
    · subst hx
      have hnone : (l.filter p).find? (key · == key x) = none := by
        rw [List.find?_eq_none]
        intro y hy hyx
        have hmem := List.mem_map_of_mem (f := key) (List.mem_filter.mp hy).1
        exact hnew (beq_iff_eq.mp hyx ▸ hmem)
      cases hp : p x <;> simp [hp, hnone, Option.filter]
    · cases hp : p x <;> simp [hp, beq_false_of_ne hx, ih hl]

/-- Under keys of their own, entries are found in any order. -/
theorem find?_perm {l l' : List α} (hperm : l.Perm l') (h : (l.map key).Nodup) (k : κ) :
    l.find? (key · == k) = l'.find? (key · == k) := by
  have h' : (l'.map key).Nodup := (hperm.map key).nodup_iff.mp h
  cases hfind : l'.find? (key · == k) with
  | none =>
    rw [List.find?_eq_none] at hfind ⊢
    exact fun x hx => hfind x (hperm.mem_iff.mp hx)
  | some x =>
    have hmem := hperm.mem_iff.mpr (List.mem_of_find?_eq_some hfind)
    rw [← key_of_find? key hfind, find?_of_mem key h hmem]

/-- Under keys of their own, what is found tells which entries there are. -/
theorem perm_of_find? {l l' : List α} (h : (l.map key).Nodup) (h' : (l'.map key).Nodup)
    (hfind : ∀ k, l.find? (key · == k) = l'.find? (key · == k)) : l.Perm l' := by
  have hmem : ∀ {m : List α}, (m.map key).Nodup → ∀ x, x ∈ m ↔ m.find? (key · == key x) = some x :=
    fun hm x => ⟨find?_of_mem key hm, List.mem_of_find?_eq_some⟩
  rw [List.perm_ext_iff_of_nodup (h.of_map key) (h'.of_map key)]
  intro x
  rw [hmem h, hmem h', hfind]

/-- An entry that is taken out and put last in a new form might as well be changed in its place. -/
theorem perm_map_at {l : List α} (h : (l.map key).Nodup) {x : α} (hx : x ∈ l) (f : α → α) :
    (l.filter (key · != key x) ++ [f x]).Perm
      (l.map fun y => if key y == key x then f y else y) := by
  induction l with
  | nil => cases hx
  | cons y l ih =>
    obtain ⟨hnew, hl⟩ := List.nodup_cons.mp h
    rcases List.mem_cons.mp hx with rfl | hx
    · have hother : ∀ z ∈ l, key z ≠ key x := fun z hz hzx =>
        hnew (hzx ▸ List.mem_map_of_mem hz)
      have hfilter : l.filter (key · != key x) = l :=
        List.filter_eq_self.mpr fun z hz => by simpa using hother z hz
      have hmap : (l.map fun z => if key z == key x then f z else z) = l := by
        conv_rhs => rw [← List.map_id l]
        exact List.map_congr_left fun z hz => by simp [hother z hz]
      rw [List.filter_cons_of_neg (by simp), hfilter, List.map_cons, hmap]
      simp [List.perm_append_singleton]
    · have hne : key y ≠ key x := fun hyx => hnew (hyx ▸ List.mem_map_of_mem hx)
      rw [List.filter_cons_of_pos (by simpa using hne), List.map_cons, if_neg (by simpa using hne)]
      exact (ih hl hx).cons y

/-- The entries with one more that comes last, in the place of the one with its key. -/
def putLast (l : List α) (x : α) : List α := l.filter (key · != key x) ++ [x]

/-- Entries that are put one after the other end up last, in the place of those with their keys. -/
theorem foldl_putLast {l xs : List α} (h : (xs.map key).Nodup) :
    xs.foldl (putLast key) l = (l.filter fun y => !(xs.map key).contains (key y)) ++ xs := by
  induction xs generalizing l with
  | nil => simp
  | cons x xs ih =>
    obtain ⟨hnew, hrest⟩ := List.nodup_cons.mp h
    have hlast : [x].filter (fun y => !(xs.map key).contains (key y)) = [x] := by
      simpa using hnew
    rw [List.foldl_cons, ih hrest, putLast, List.filter_append, hlast, List.filter_filter,
      List.append_assoc, List.singleton_append]
    congr 2
    funext y
    by_cases hy : key y = key x <;> simp [hy]

/-- Under keys of their own, some entries are put last in a new form; the others have not moved. -/
theorem foldl_putLast_filter {l : List α} (h : (l.map key).Nodup) (p : α → Bool) {f : α → α}
    (hkey : ∀ x, key (f x) = key x) :
    ((l.filter p).map f).foldl (putLast key) l =
      (l.filter fun x => !p x) ++ (l.filter p).map f := by
  have hkeys : ((l.filter p).map f).map key = (l.filter p).map key := by
    simp [hkey, Function.comp_def]
  have hnodup : ((l.filter p).map key).Nodup := h.sublist (List.filter_sublist.map _)
  rw [foldl_putLast key (hkeys ▸ hnodup), hkeys]
  congr 1
  apply List.filter_congr
  intro x hx
  congr 1
  rw [Bool.eq_iff_iff, List.contains_iff_mem, List.mem_map]
  constructor
  · rintro ⟨y, hy, hyx⟩
    obtain ⟨hmem, hpy⟩ := List.mem_filter.mp hy
    rwa [← List.inj_on_of_nodup_map h hmem hx hyx]
  · intro hpx
    exact ⟨x, List.mem_filter.mpr ⟨hx, hpx⟩, rfl⟩

/-- When nothing but what is put last has a new form, that comes to the same as changing each entry
in its place. -/
theorem perm_foldl_putLast {l : List α} (h : (l.map key).Nodup) {p : α → Bool} {f : α → α}
    (hkey : ∀ x, key (f x) = key x) (hsame : ∀ x, p x = false → f x = x) :
    (((l.filter p).map f).foldl (putLast key) l).Perm (l.map f) := by
  have hrest : (l.filter fun x => !p x) = (l.filter fun x => !p x).map f := by
    conv_lhs => rw [← List.map_id (l.filter _)]
    apply List.map_congr_left
    intro x hx
    exact (hsame x (by simpa using (List.mem_filter.mp hx).2)).symm
  rw [foldl_putLast_filter key h p hkey, hrest, ← List.map_append]
  exact (List.perm_append_comm.trans (List.filter_append_perm p l)).map f

/-- Entries whose keys are all among some keys are counted once each, key by key. -/
theorem sum_countP_fibers (p : α → Bool) {keys : List κ} (hkeys : keys.Nodup) {l : List α}
    (h : ∀ x ∈ l, key x ∈ keys) :
    (keys.map fun k => (l.filter (key · == k)).countP p).sum = l.countP p := by
  induction l with
  | nil => simp
  | cons x l ih =>
    obtain ⟨hx, hl⟩ := List.forall_mem_cons.mp h
    have hcons : ∀ k, ((x :: l).filter (key · == k)).countP p =
        (l.filter (key · == k)).countP p + if k = key x then [x].countP p else 0 := by
      intro k
      by_cases hk : k = key x
      · simp [hk, List.countP_cons]
      · simp [hk, Ne.symm hk]
    have hfiber : (keys.map fun k => if k = key x then [x].countP p else 0).sum = [x].countP p := by
      rw [List.sum_map_eq_nsmul_single (key x) _ fun k hk _ => if_neg hk,
        List.count_eq_one_of_mem hkeys hx, one_nsmul, if_pos rfl]
    rw [List.map_congr_left fun k _ => hcons k, List.sum_map_add, ih hl, hfiber]
    simp [List.countP_cons]

end Keyed

namespace Assoc
variable {α : Type}

theorem lookup_eq_find? (l : List (String × α)) (k : String) :
    l.lookup k = (l.find? (·.1 == k)).map Prod.snd := by
  induction l with
  | nil => rfl
  | cons e l ih =>
    rw [List.lookup_cons, List.find?_cons, ih]
    by_cases h : k = e.1
    · simp [h]
    · simp [beq_false_of_ne h, beq_false_of_ne (Ne.symm h)]

@[simp] theorem lookup_put (l : List (String × α)) (key k : String) (value : α) :
    (put l key value).lookup k = if k = key then some value else l.lookup k := by
  rw [lookup_eq_find?, lookup_eq_find?, put, Keyed.find?_put Prod.fst l (key, value)]
  split <;> rfl

@[simp] theorem lookup_erase (l : List (String × α)) (key k : String) :
    (erase l key).lookup k = if k = key then none else l.lookup k := by
  rw [lookup_eq_find?, lookup_eq_find?, erase, Keyed.find?_filter_ne Prod.fst]
  split <;> rfl

/-- Under keys of their own, values are found in any order. -/
theorem lookup_perm {l l' : List (String × α)} (hperm : l.Perm l') (h : (l.map Prod.fst).Nodup)
    (k : String) : l.lookup k = l'.lookup k := by
  rw [lookup_eq_find?, lookup_eq_find?, Keyed.find?_perm Prod.fst hperm h]

theorem lookup_eq_none_of_notMem {l : List (String × α)} {k : String} (h : k ∉ l.map Prod.fst) :
    l.lookup k = none := by
  rw [lookup_eq_find?, Option.map_eq_none_iff, List.find?_eq_none]
  rintro e he hk
  exact h (beq_iff_eq.mp hk ▸ List.mem_map_of_mem he)

/-- Under keys of their own, an entry in the middle makes a difference under its key only. -/
theorem lookup_middle {l l' : List (String × α)} {key : String} {value : α}
    (h : ((l ++ (key, value) :: l').map Prod.fst).Nodup) (k : String) :
    (l ++ (key, value) :: l').lookup k = if k = key then some value else (l ++ l').lookup k := by
  rw [lookup_perm List.perm_middle h, List.lookup_cons]
  by_cases hk : k = key
  · simp [hk]
  · rw [if_neg hk, beq_false_of_ne hk]

/-- A key that is taken out and put at the end. -/
theorem lookup_erase_append (l : List (String × α)) (key k : String) (value : α) :
    (erase l key ++ [(key, value)]).lookup k = if k = key then some value else l.lookup k := by
  rw [List.lookup_append, lookup_erase, List.lookup_cons, List.lookup_nil]
  by_cases h : k = key
  · simp [h]
  · rw [if_neg h, if_neg h, beq_false_of_ne h, Option.or_none]

end Assoc
end FirewallRollout
