import FirewallRollout.Datum.Layout
import FirewallRollout.Proofs.Keyed

/-!
# Records by name and by position

When no key names two fields of a layout, each entry of a record belongs to one field at most, and
the values of a record are found whether they are written by name or by position. A value that is
null may as well be left out, unless its field reads null in a way of its own.
-/
namespace FirewallRollout

theorem Field.named_iff {f : Field} {key : String} :
    f.named key = true ↔ key ∈ f.name :: f.aliases := by
  simp [named]

theorem Field.named_name (f : Field) : f.named f.name = true :=
  named_iff.mpr (.head _)

namespace Layout
variable {layout : Layout} {f : Field} {key : String} {entries : List (String × Datum)}

/-- No key names two fields. -/
def Distinct (layout : Layout) : Prop := (layout.flatMap fun f => f.name :: f.aliases).Nodup

instance (layout : Layout) : Decidable layout.Distinct :=
  inferInstanceAs (Decidable (List.Nodup _))

theorem Distinct.nodup_names (h : layout.Distinct) : (layout.map Field.name).Nodup := by
  obtain ⟨-, hdisjoint⟩ := List.nodup_flatMap.mp h
  refine List.pairwise_map.mpr (hdisjoint.imp fun hfg heq => ?_)
  exact hfg (.head _) (heq ▸ .head _)

/-- A key finds the field that it names. -/
theorem Distinct.find?_named (h : layout.Distinct) (hf : f ∈ layout) (hkey : f.named key = true) :
    layout.find? (·.named key) = some f := by
  induction layout with
  | nil => cases hf
  | cons g layout ih =>
    rw [Distinct, List.flatMap_cons] at h
    obtain ⟨-, hlayout, hdisjoint⟩ := List.nodup_append.mp h
    rcases List.mem_cons.mp hf with rfl | hf
    · simp [hkey]
    · have hother : ¬ g.named key = true := fun hg =>
        hdisjoint key (Field.named_iff.mp hg) key
          (List.mem_flatMap.mpr ⟨f, hf, Field.named_iff.mp hkey⟩) rfl
      rw [List.find?_cons_of_neg (by simpa using hother)]
      exact ih hlayout hf

theorem known_append (layout : Layout) (entries entries' : List (String × Datum)) :
    layout.known (entries ++ entries') = layout.known entries ++ layout.known entries' :=
  List.filterMap_append

theorem known_cons_named (h : layout.Distinct) (hf : f ∈ layout) (hkey : f.named key = true)
    (d : Datum) : layout.known ((key, d) :: entries) = (f.name, d) :: layout.known entries := by
  simp [known, h.find?_named hf hkey]

/-- A key that names no field is passed over. -/
theorem known_cons_foreign (hkey : ∀ f ∈ layout, f.named key = false) (d : Datum) :
    layout.known ((key, d) :: entries) = layout.known entries := by
  have hnone : layout.find? (·.named key) = none :=
    List.find?_eq_none.mpr fun f hf => by simp [hkey f hf]
  simp [known, hnone]

/-- As many values come for a field as there are keys that name it. -/
theorem count_known (h : layout.Distinct) (hf : f ∈ layout) :
    ((layout.known entries).map Prod.fst).count f.name = entries.countP fun e => f.named e.1 := by
  induction entries with
  | nil => rfl
  | cons e entries ih =>
    obtain ⟨key, d⟩ := e
    by_cases hkey : f.named key = true
    · rw [known_cons_named h hf hkey, List.map_cons, List.count_cons_self, ih, List.countP_cons,
        if_pos hkey]
    · rw [List.countP_cons, if_neg hkey, Nat.add_zero, ← ih]
      by_cases hforeign : ∀ g ∈ layout, g.named key = false
      · rw [known_cons_foreign hforeign]
      · push Not at hforeign
        obtain ⟨g, hg, hgkey⟩ := hforeign
        have hgkey : g.named key = true := by simpa using hgkey
        have hname : g.name ≠ f.name := by
          intro heq
          have hfind := h.find?_named hg g.named_name
          rw [heq, h.find?_named hf f.named_name] at hfind
          exact hkey (Option.some.inj hfind ▸ hgkey)
        rw [known_cons_named h hg hgkey, List.map_cons, List.count_cons_of_ne hname]

/-- A field that no key names is not given. -/
theorem notMem_known (h : layout.Distinct) (hf : f ∈ layout)
    (habsent : ∀ e ∈ entries, f.named e.1 = false) :
    f.name ∉ (layout.known entries).map Prod.fst := by
  rw [← List.count_eq_zero, count_known h hf, List.countP_eq_zero]
  intro e he
  simp [habsent e he]

/-- A field is given the value under any of its names. -/
theorem mem_known (h : layout.Distinct) (hf : f ∈ layout) (hkey : f.named key = true) {d : Datum}
    (hmem : (key, d) ∈ entries) : (f.name, d) ∈ layout.known entries := by
  refine List.mem_filterMap.mpr ⟨_, hmem, ?_⟩
  rw [h.find?_named hf hkey, Option.map_some]

theorem read?_record_eq_some_iff {surplus : Surplus} {fields : Fields} :
    layout.read? surplus (.record entries) = some fields ↔
      ((layout.known entries).map Prod.fst).Nodup ∧ layout.known entries = fields := by
  simp [read?]

/-- A record that gives a field twice is refused. -/
theorem read?_eq_none_of_twice (h : layout.Distinct) (hf : f ∈ layout) (surplus : Surplus)
    (htwice : 2 ≤ entries.countP fun e => f.named e.1) :
    layout.read? surplus (.record entries) = none := by
  have hcount : ((layout.known entries).map Prod.fst).count f.name =
      entries.countP fun e => f.named e.1 := count_known h hf
  have hnodup : ¬ ((layout.known entries).map Prod.fst).Nodup := fun hnodup => by
    have hone := List.nodup_iff_count_le_one.mp hnodup f.name
    omega
  simp [read?, hnodup]

/-! ## Values in the layout's order -/

section Values
variable {values : List Datum}

/-- The values of a layout's fields under the fields' names. -/
def byName (layout : Layout) (values : List Datum) : Fields := (layout.map Field.name).zip values

theorem read?_list (hlength : values.length = layout.length) (surplus : Surplus) :
    layout.read? surplus (.list values) = some (layout.byName values) := by
  have hallowed : surplus.allows layout.length layout.length = true := by
    cases surplus <;> simp [Surplus.allows]
  simp [read?, byName, hallowed, hlength]

theorem nodup_byName (h : layout.Distinct) (hlength : values.length = layout.length) :
    ((layout.byName values).map Prod.fst).Nodup := by
  rw [byName, List.map_fst_zip (by simp [hlength])]
  exact h.nodup_names

/-- Entries under the fields' own names are known as they are. -/
theorem known_eq_self (h : layout.Distinct) (hentries : ∀ e ∈ entries, e.1 ∈ layout.map Field.name) :
    layout.known entries = entries := by
  induction entries with
  | nil => rfl
  | cons e entries ih =>
    obtain ⟨hkey, hrest⟩ := List.forall_mem_cons.mp hentries
    obtain ⟨f, hf, hname⟩ := List.mem_map.mp hkey
    obtain ⟨key, d⟩ := e
    subst hname
    rw [known_cons_named h hf f.named_name, ih hrest]

theorem mem_entries {e : String × Datum} (he : e ∈ layout.entries values) :
    e.1 ∈ layout.map Field.name ∧ e.2 ∈ values :=
  List.of_mem_zip (List.mem_filter.mp he).1

theorem read?_entries (h : layout.Distinct) (hlength : values.length = layout.length)
    (surplus : Surplus) :
    layout.read? surplus (.record (layout.entries values)) = some (layout.entries values) := by
  have hknown := known_eq_self h fun e (he : e ∈ layout.entries values) => (mem_entries he).1
  refine read?_record_eq_some_iff.mpr ⟨?_, hknown⟩
  rw [hknown]
  exact (nodup_byName h hlength).sublist (List.filter_sublist.map _)

/-- By name, a value is found unless it is null. -/
theorem lookup_entries (h : layout.Distinct) (hlength : values.length = layout.length)
    (name : String) :
    (layout.entries values).lookup name =
      ((layout.byName values).lookup name).filter fun d => !d.isNull := by
  have hfind := Keyed.find?_filter Prod.fst (nodup_byName h hlength) (fun e => !e.2.isNull) name
  rw [Assoc.lookup_eq_find?, Assoc.lookup_eq_find?]
  refine (congrArg (Option.map Prod.snd) hfind).trans ?_
  cases (layout.byName values).find? (·.1 == name) with
  | none => rfl
  | some e => cases hnull : e.2.isNull <;> simp [Option.filter, hnull]

end Values
end Layout

namespace Fields
variable {α : Type} {fields fields' : Fields} {name : String} {read : Datum → Option α}

/-- A field that refuses null is read alike when nulls are left out. -/
theorem required_leftOut (h : fields'.lookup name = (fields.lookup name).filter fun d => !d.isNull)
    (hread : read .null = none) : fields'.required name read = fields.required name read := by
  rw [required, required, h]
  cases fields.lookup name with
  | none => rfl
  | some d => cases d <;> simp [Option.filter, Datum.isNull, hread]

theorem optional_leftOut (h : fields'.lookup name = (fields.lookup name).filter fun d => !d.isNull) :
    fields'.optional name read = fields.optional name read := by
  rw [optional, optional, h]
  cases fields.lookup name with
  | none => rfl
  | some d => cases d <;> simp [Option.filter, Datum.isNull]

end Fields
end FirewallRollout
