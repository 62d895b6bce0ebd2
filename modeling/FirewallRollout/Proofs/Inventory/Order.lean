import FirewallRollout.Rule.Basic
import Mathlib.Data.List.Basic

/-!
# Script order

Rules come by priority and then by identifier, numbers before texts. Where no two rules share their
identifier this is strict, so that rules have one list in script order, whatever order they came in.
Where they do, rules that tie keep their order, and it does not matter whether some rules are left out
before or after the others are put in order.
-/
namespace FirewallRollout

namespace RuleId

/-- One identifier comes before another: numbers by value, and texts by code points after them. -/
inductive Before : RuleId → RuleId → Prop
  | numbers {m n : Int64} (less : m.toInt < n.toInt) : Before (.number m) (.number n)
  | kinds (n : Int64) (s : String) : Before (.number n) (.text s)
  | texts {s t : String} (less : s < t) : Before (.text s) (.text t)

theorem le_total (a b : RuleId) : a.le b = true ∨ b.le a = true := by
  cases a with
  | number m =>
    cases b with
    | number n => simpa [le] using Int.le_total m.toInt n.toInt
    | text t => exact .inl rfl
  | text s =>
    cases b with
    | number n => exact .inr rfl
    | text t => simpa [le] using String.le_total s t

theorem le_trans {a b c : RuleId} (hab : a.le b = true) (hbc : b.le c = true) : a.le c = true := by
  cases a <;> cases b <;> cases c <;> simp only [le, decide_eq_true_eq, Bool.false_eq_true] at *
  · exact Int.le_trans hab hbc
  · exact String.le_trans hab hbc

theorem before_of_le {a b : RuleId} (h : a.le b = true) (hne : a ≠ b) : a.Before b := by
  cases a with
  | number m =>
    cases b with
    | number n =>
      have hle : m.toInt ≤ n.toInt := by simpa [le] using h
      have hvalue : m.toInt ≠ n.toInt := fun heq => hne (congrArg number (Int64.toInt_inj.mp heq))
      exact .numbers (by omega)
    | text t => exact .kinds m t
  | text s =>
    cases b with
    | number n => cases h
    | text t =>
      have hle : s ≤ t := by simpa [le] using h
      exact .texts (Std.lt_of_le_of_ne hle fun heq => hne (congrArg text heq))

theorem Before.asymm {a b : RuleId} (h : a.Before b) : ¬ b.Before a := by
  intro h'
  cases h with
  | numbers less =>
    cases h' with
    | numbers less' => omega
  | kinds n s => cases h'
  | texts less =>
    cases h' with
    | texts less' => exact String.lt_asymm less less'

end RuleId

namespace Rule

/-- One rule comes before another in every script. -/
def Before (a b : Rule) : Prop :=
  a.priority.toInt < b.priority.toInt ∨ a.priority = b.priority ∧ a.id.Before b.id

theorem le_iff {a b : Rule} : a.le b = true ↔
    a.priority.toInt < b.priority.toInt ∨ a.priority = b.priority ∧ a.id.le b.id = true := by
  simp [le]

theorem le_total (a b : Rule) : a.le b = true ∨ b.le a = true := by
  rw [le_iff, le_iff]
  rcases Int.lt_trichotomy a.priority.toInt b.priority.toInt with h | h | h
  · exact .inl (.inl h)
  · have heq := Int64.toInt_inj.mp h
    exact (a.id.le_total b.id).imp (fun hid => .inr ⟨heq, hid⟩) fun hid => .inr ⟨heq.symm, hid⟩
  · exact .inr (.inl h)

theorem le_trans {a b c : Rule} (hab : a.le b = true) (hbc : b.le c = true) : a.le c = true := by
  rw [le_iff] at hab hbc ⊢
  rcases hab with hab | ⟨hab, hid⟩
  · rcases hbc with hbc | ⟨hbc, -⟩
    · exact .inl (Int.lt_trans hab hbc)
    · exact .inl (hbc ▸ hab)
  · rcases hbc with hbc | ⟨hbc, hid'⟩
    · exact .inl (hab ▸ hbc)
    · exact .inr ⟨hab.trans hbc, RuleId.le_trans hid hid'⟩

theorem before_of_le {a b : Rule} (h : a.le b = true) (hne : a.id ≠ b.id) : a.Before b :=
  (le_iff.mp h).imp_right fun ⟨heq, hid⟩ => ⟨heq, RuleId.before_of_le hid hne⟩

theorem Before.asymm {a b : Rule} (h : a.Before b) : ¬ b.Before a := by
  rintro (h' | ⟨heq', hid'⟩)
  · rcases h with h | ⟨heq, -⟩
    · omega
    · rw [heq] at h'
      exact absurd h' (Int.lt_irrefl _)
  · rcases h with h | ⟨-, hid⟩
    · rw [heq'] at h
      exact absurd h (Int.lt_irrefl _)
    · exact hid.asymm hid'

@[simp] theorem mem_inOrder {r : Rule} {rules : List Rule} : r ∈ inOrder rules ↔ r ∈ rules :=
  List.mem_mergeSort

theorem inOrder_perm (rules : List Rule) : (inOrder rules).Perm rules := List.mergeSort_perm rules le

/-- Rules under identifiers of their own come in strict order. -/
theorem pairwise_inOrder {rules : List Rule} (h : (rules.map Rule.id).Nodup) :
    (inOrder rules).Pairwise Before := by
  have htotal : ∀ a b : Rule, (a.le b || b.le a) = true := fun a b =>
    Bool.or_eq_true_iff.mpr (a.le_total b)
  have hle : (inOrder rules).Pairwise fun a b => a.le b = true :=
    @List.pairwise_mergeSort _ le (fun _ _ _ => le_trans) htotal rules
  have hids : (inOrder rules).Pairwise fun a b => a.id ≠ b.id :=
    List.pairwise_map.mp (((inOrder_perm rules).map Rule.id).nodup_iff.mpr h)
  exact (hle.and hids).imp fun ⟨hab, hne⟩ => before_of_le hab hne

/-- The same rules in strict order make the same list. -/
theorem eq_of_pairwise_before {rules rules' : List Rule} (h : rules.Pairwise Before)
    (h' : rules'.Pairwise Before) (hmem : ∀ r, r ∈ rules ↔ r ∈ rules') : rules = rules' := by
  have hnodup : ∀ {l : List Rule}, l.Pairwise Before → l.Nodup := by
    refine fun hl => hl.imp fun {a b} hab => ?_
    rintro rfl
    exact hab.asymm hab
  exact List.Perm.eq_of_pairwise (fun a b _ _ hab hba => absurd hba hab.asymm) h h'
    ((List.perm_ext_iff_of_nodup (hnodup h) (hnodup h')).mpr hmem)

/-- Rules that fall into those that another does not come before, and those that it does. -/
structure SplitsAt (r : Rule) (rules before after : List Rule) : Prop where
  eq_append : rules = before ++ after
  later : ∀ x ∈ before, r.le x = false
  earlier : ∀ x ∈ after, r.le x = true

theorem SplitsAt.unique {r : Rule} {rules before after before' after' : List Rule}
    (h : r.SplitsAt rules before after) (h' : r.SplitsAt rules before' after') :
    before = before' ∧ after = after' := by
  have hparts : ∀ {b a : List Rule}, r.SplitsAt rules b a →
      rules.filter (fun x => !r.le x) = b ∧ rules.filter (r.le ·) = a := by
    intro b a hsplit
    have hlater : ∀ x ∈ b, (!r.le x) = true := by simpa using hsplit.later
    rw [hsplit.eq_append, List.filter_append, List.filter_append, List.filter_eq_self.mpr hlater,
      List.filter_eq_self.mpr hsplit.earlier,
      List.filter_eq_nil_iff.mpr (by simpa using hsplit.earlier),
      List.filter_eq_nil_iff.mpr (by simpa using hsplit.later)]
    exact ⟨List.append_nil b, List.nil_append a⟩
  exact ⟨(hparts h).1.symm.trans (hparts h').1, (hparts h).2.symm.trans (hparts h').2⟩

theorem SplitsAt.filter {r : Rule} {rules before after : List Rule}
    (h : r.SplitsAt rules before after) (p : Rule → Bool) :
    r.SplitsAt (rules.filter p) (before.filter p) (after.filter p) where
  eq_append := by rw [h.eq_append, List.filter_append]
  later x hx := h.later x (List.mem_filter.mp hx).1
  earlier x hx := h.earlier x (List.mem_filter.mp hx).1

/-- The first of some rules is put right before those that it does not come after. -/
theorem inOrder_cons (r : Rule) (rules : List Rule) : ∃ before after,
    inOrder (r :: rules) = before ++ r :: after ∧ r.SplitsAt (inOrder rules) before after := by
  have htotal : ∀ a b : Rule, (a.le b || b.le a) = true := fun a b =>
    Bool.or_eq_true_iff.mpr (a.le_total b)
  obtain ⟨before, after, hsorted, hrest, hbefore⟩ :=
    @List.mergeSort_cons _ le (fun _ _ _ => le_trans) htotal r rules
  have hordered : (before ++ r :: after).Pairwise fun a b => a.le b = true := by
    rw [← hsorted]
    exact @List.pairwise_mergeSort _ le (fun _ _ _ => le_trans) htotal (r :: rules)
  rw [List.pairwise_append, List.pairwise_cons] at hordered
  exact ⟨before, after, hsorted, hrest, by simpa using hbefore, hordered.2.1.1⟩

/-- Leaving rules out and putting the others in order can be done in either order. -/
theorem filter_inOrder (p : Rule → Bool) (rules : List Rule) :
    (inOrder rules).filter p = inOrder (rules.filter p) := by
  induction rules with
  | nil => simp [inOrder]
  | cons r rules ih =>
    obtain ⟨before, after, hsorted, hsplit⟩ := inOrder_cons r rules
    have hkept := hsplit.filter p
    rw [ih] at hkept
    rw [hsorted, List.filter_append]
    by_cases hp : p r = true
    · obtain ⟨before', after', hsorted', hsplit'⟩ := inOrder_cons r (rules.filter p)
      obtain ⟨rfl, rfl⟩ := hkept.unique hsplit'
      rw [List.filter_cons_of_pos hp, List.filter_cons_of_pos hp, hsorted']
    · rw [List.filter_cons_of_neg hp, List.filter_cons_of_neg hp, hkept.eq_append]

end Rule
end FirewallRollout
