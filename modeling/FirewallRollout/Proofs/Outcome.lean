import Mathlib.Data.List.Forall2

/-!
# Outcomes of computations

What is known of the parts of a computation that succeeds, and of the part at which one fails.
-/
namespace FirewallRollout

/-- A bind that succeeds, in its two steps. -/
theorem bind_ok {ε α β : Type} {x : Except ε α} {f : α → Except ε β} {b : β}
    (h : x >>= f = .ok b) : ∃ a, x = .ok a ∧ f a = .ok b := by
  cases x with
  | error e => cases h
  | ok a => exact ⟨a, rfl, h⟩

/-- A bind that finds something, in its two steps. -/
theorem bind_eq_some_iff {α β : Type} {x : Option α} {f : α → Option β} {b : β} :
    x >>= f = some b ↔ ∃ a, x = some a ∧ f a = some b :=
  Option.bind_eq_some_iff

/-- What succeeds after a result is turned into another. -/
theorem map_ok {ε α β : Type} {x : Except ε α} {f : α → β} {b : β} (h : x.map f = .ok b) :
    ∃ a, x = .ok a ∧ f a = b := by
  cases x with
  | error e => cases h
  | ok a => exact ⟨a, rfl, Except.ok.inj h⟩

/-- A bind that fails, in the step that does. -/
theorem bind_error {ε α β : Type} {x : Except ε α} {f : α → Except ε β} {e : ε}
    (h : x >>= f = .error e) : x = .error e ∨ ∃ a, x = .ok a ∧ f a = .error e := by
  cases x with
  | error e' => exact .inl (congrArg Except.error (Except.error.inj h))
  | ok a => exact .inr ⟨a, rfl, h⟩

/-- What comes out of a list of results came from one of its members. -/
theorem mem_of_mapM_ok {ε α β : Type} {f : α → Except ε β} {l : List α} {l' : List β}
    (h : l.mapM f = .ok l') {b : β} (hb : b ∈ l') : ∃ a ∈ l, f a = .ok b := by
  induction l generalizing l' with
  | nil =>
    obtain rfl := Except.ok.inj h
    cases hb
  | cons a l ih =>
    rw [List.mapM_cons] at h
    obtain ⟨b', hb', h⟩ := bind_ok h
    obtain ⟨l'', hl'', h⟩ := bind_ok h
    obtain rfl := Except.ok.inj h
    rcases List.mem_cons.mp hb with rfl | hb
    · exact ⟨a, .head _, hb'⟩
    · obtain ⟨x, hx, hfx⟩ := ih hl'' hb
      exact ⟨x, .tail _ hx, hfx⟩

/-- A list of results all of which are successes. -/
theorem mapM_ok {ε α β : Type} {f : α → Except ε β} {k : α → β} {l : List α}
    (h : ∀ a ∈ l, f a = .ok (k a)) : l.mapM f = .ok (l.map k) := by
  induction l with
  | nil => rfl
  | cons a l ih =>
    rw [List.mapM_cons, h a (.head _), ih fun b hb => h b (.tail _ hb)]
    rfl

theorem mapM_map_ok {ε α β γ : Type} {f : β → Except ε γ} {g : α → β} {k : α → γ}
    (h : ∀ a, f (g a) = .ok (k a)) (l : List α) : (l.map g).mapM f = .ok (l.map k) := by
  rw [List.mapM_map]
  exact mapM_ok fun a _ => h a

/-- A list of results that succeeds has a success for each member, in order. -/
theorem forall₂_of_mapM_ok {ε α β : Type} {f : α → Except ε β} {l : List α} {l' : List β}
    (h : l.mapM f = .ok l') : List.Forall₂ (fun a b => f a = .ok b) l l' := by
  induction l generalizing l' with
  | nil =>
    obtain rfl := Except.ok.inj h
    exact .nil
  | cons a l ih =>
    rw [List.mapM_cons] at h
    obtain ⟨b, hb, h⟩ := bind_ok h
    obtain ⟨rest, hrest, h⟩ := bind_ok h
    obtain rfl := Except.ok.inj h
    exact .cons hb (ih hrest)

/-- What the members of a list and their results have in common. -/
theorem map_eq_of_mapM_ok {ε α β γ : Type} {f : α → Except ε β} {g : α → γ} {k : β → γ}
    (hgk : ∀ {a b}, f a = .ok b → g a = k b) {l : List α} {l' : List β} (h : l.mapM f = .ok l') :
    l.map g = l'.map k := by
  have hall := forall₂_of_mapM_ok h
  clear h
  induction hall with
  | nil => rfl
  | cons hab _ ih => rw [List.map_cons, List.map_cons, hgk hab, ih]

/-- Leaving out members of a list leaves out their results, when the results tell which these are. -/
theorem mapM_filter_ok {ε α β : Type} {f : α → Except ε β} {p : α → Bool} {q : β → Bool}
    (hq : ∀ {a b}, f a = .ok b → q b = p a) {l : List α} {l' : List β} (h : l.mapM f = .ok l') :
    (l.filter p).mapM f = .ok (l'.filter q) := by
  induction l generalizing l' with
  | nil =>
    obtain rfl := Except.ok.inj h
    rfl
  | cons a l ih =>
    rw [List.mapM_cons] at h
    obtain ⟨b, hb, h⟩ := bind_ok h
    obtain ⟨rest, hrest, h⟩ := bind_ok h
    obtain rfl := Except.ok.inj h
    rw [List.filter_cons, List.filter_cons, hq hb]
    split
    · rw [List.mapM_cons, hb, ih hrest]
      rfl
    · exact ih hrest

/-- A member of a list that is matched one by one with another has its match there. -/
theorem exists_match {α β : Type} {R : α → β → Prop} {l : List α} {l' : List β}
    (h : List.Forall₂ R l l') {a : α} (ha : a ∈ l) : ∃ b ∈ l', R a b := by
  induction h with
  | nil => cases ha
  | cons hab _ ih =>
    rcases List.mem_cons.mp ha with rfl | ha
    · exact ⟨_, .head _, hab⟩
    · obtain ⟨b, hb, hmatch⟩ := ih ha
      exact ⟨b, .tail _ hb, hmatch⟩

/-- Lists that are matched one by one are in order together. -/
theorem pairwise_of_matched {α β : Type} {R : α → β → Prop} {P : β → β → Prop} {Q : α → α → Prop}
    (hQ : ∀ {a a' b b'}, R a b → R a' b' → P b b' → Q a a') {l : List α} {l' : List β}
    (h : List.Forall₂ R l l') (hordered : l'.Pairwise P) : l.Pairwise Q := by
  induction h with
  | nil => exact .nil
  | cons hab hrest ih =>
    obtain ⟨hfirst, hlater⟩ := List.pairwise_cons.mp hordered
    refine List.pairwise_cons.mpr ⟨fun a' ha' => ?_, ih hlater⟩
    obtain ⟨b', hb', hmatch⟩ := exists_match hrest ha'
    exact hQ hab hmatch (hfirst b' hb')

/-- A list of results fails as one of its members does. -/
theorem mem_of_mapM_error {ε α β : Type} {f : α → Except ε β} {l : List α} {e : ε}
    (h : l.mapM f = .error e) : ∃ a ∈ l, f a = .error e := by
  induction l with
  | nil => cases h
  | cons a l ih =>
    rw [List.mapM_cons] at h
    rcases bind_error h with h | ⟨b, -, h⟩
    · exact ⟨a, .head _, h⟩
    · rcases bind_error h with h | ⟨rest, -, h⟩
      · obtain ⟨x, hx, hfx⟩ := ih h
        exact ⟨x, .tail _ hx, hfx⟩
      · cases h

end FirewallRollout
