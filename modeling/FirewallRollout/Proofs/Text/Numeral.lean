import FirewallRollout.Proofs.Rule.Spelling

/-!
# Numerals and names

A numeral is read as its number whatever the zeros in front of it, and nothing else is read as one.
A name is the same in small letters and in capitals, so that it does not matter to which of the two
its letters are folded.
-/
namespace FirewallRollout

namespace Text

theorem toNat_of_isDigit {c : Char} (h : c.isDigit = true) : 48 ≤ c.toNat ∧ c.toNat ≤ 57 := by
  simp only [Char.isDigit, Bool.and_eq_true, decide_eq_true_eq, ge_iff_le,
    UInt32.le_iff_toNat_le] at h
  exact h

theorem digitChar_of_isDigit {c : Char} (h : c.isDigit = true) :
    Nat.digitChar (c.toNat - 48) = c := by
  have hdigit : ∀ d < 10, (Nat.digitChar d).toNat = d + 48 := by decide
  have hbounds := toNat_of_isDigit h
  rw [← Char.toNat_inj, hdigit _ (by omega)]
  omega

/-- Digits behind the numeral of a positive number make a numeral again. -/
theorem toDigits_append {acc : Nat} (hacc : 0 < acc) {cs : List Char}
    (h : ∀ c ∈ cs, c.isDigit = true) :
    Nat.toDigits 10 acc ++ cs = Nat.toDigits 10 (Nat.ofDigitChars 10 cs acc) := by
  induction cs generalizing acc with
  | nil => simp
  | cons c cs ih =>
    obtain ⟨hc, hcs⟩ := List.forall_mem_cons.mp h
    have hbounds := toNat_of_isDigit hc
    have hdigit : c.toNat - 48 < 10 := by omega
    have hone : Nat.toDigits 10 acc ++ [c] = Nat.toDigits 10 (10 * acc + (c.toNat - 48)) := by
      rw [← Nat.toDigits_append_toDigits (by decide) hacc hdigit, Nat.toDigits_of_lt_base hdigit,
        digitChar_of_isDigit hc]
    rw [Nat.ofDigitChars_cons, ← List.singleton_append, ← List.append_assoc, hone,
      ih (by omega) hcs]
    rfl

/-- A number in decimal, with any number of zeros in front. -/
def IsNumeral (cs : List Char) (n : Nat) : Prop :=
  ∃ zeros, cs = List.replicate zeros '0' ++ (toString n).toList

/-- Digits that do not begin with a zero are the numeral of what they denote. -/
theorem toList_toString_decimalFrom {c : Char} {cs : List Char} (hc : c.isDigit = true)
    (hzero : c ≠ '0') (hcs : ∀ d ∈ cs, d.isDigit = true) :
    (toString (decimalFrom 0 (c :: cs))).toList = c :: cs := by
  have hbounds := toNat_of_isDigit hc
  have hpositive : 0 < c.toNat - 48 := by
    have hne : c.toNat ≠ 48 := fun h => hzero (Char.toNat_inj.mp h)
    omega
  have hone : Nat.toDigits 10 (c.toNat - 48) = [c] := by
    rw [Nat.toDigits_of_lt_base (by omega), digitChar_of_isDigit hc]
  have hvalue : decimalFrom 0 (c :: cs) = Nat.ofDigitChars 10 cs (c.toNat - 48) := by
    rw [decimalFrom_eq_ofDigitChars, Nat.ofDigitChars_cons, Nat.mul_zero, Nat.zero_add]
    rfl
  rw [Nat.toString_eq_ofList_toDigits, String.toList_ofList, hvalue,
    ← toDigits_append hpositive hcs, hone, List.singleton_append]

theorem isNumeral_of_digits {cs : List Char} (hne : cs ≠ []) (h : ∀ c ∈ cs, c.isDigit = true) :
    IsNumeral cs (decimalFrom 0 cs) := by
  induction cs with
  | nil => exact absurd rfl hne
  | cons c cs ih =>
    obtain ⟨hc, hcs⟩ := List.forall_mem_cons.mp h
    by_cases hzero : c = '0'
    · subst hzero
      rw [decimalFrom_zero_cons]
      -- the last zero of all is the numeral of zero itself
      by_cases hlast : cs = []
      · subst hlast
        exact ⟨0, rfl⟩
      · obtain ⟨zeros, hzeros⟩ := ih hlast hcs
        exact ⟨zeros + 1, by rw [List.replicate_succ, List.cons_append, ← hzeros]⟩
    · exact ⟨0, (toList_toString_decimalFrom hc hzero hcs).symm⟩

/-- Digits are read as the number whose numeral they are. -/
theorem decimal?_eq_some_iff_isNumeral {cs : List Char} {n : Nat} :
    decimal? cs = some n ↔ IsNumeral cs n := by
  rw [decimal?_eq_some_iff]
  constructor
  · rintro ⟨hne, hdigits, rfl⟩
    exact isNumeral_of_digits hne hdigits
  · rintro ⟨zeros, rfl⟩
    induction zeros with
    | zero => exact decimal?_eq_some_iff.mp (decimal?_toString n)
    | succ zeros ih =>
      obtain ⟨-, hdigits, hvalue⟩ := ih
      rw [List.replicate_succ, List.cons_append]
      exact ⟨List.cons_ne_nil _ _, List.forall_mem_cons.mpr ⟨by decide, hdigits⟩,
        by rw [decimalFrom_zero_cons, hvalue]⟩

/-- Nothing but digits stands in a numeral. -/
theorem colon_notMem_of_isNumeral {cs : List Char} {n : Nat} (h : IsNumeral cs n) : ':' ∉ cs := by
  intro hcolon
  obtain ⟨-, hdigits, -⟩ := decimal?_eq_some_iff.mp (decimal?_eq_some_iff_isNumeral.mpr h)
  exact absurd (hdigits ':' hcolon) (by decide)

/-- A text that spells a name, with blanks around it and its ASCII letters in any case. -/
def Spells (s name : String) : Prop := foldLower (trim s) = foldLower name

theorem toNat_toLower (c : Char) :
    c.toLower.toNat = if 65 ≤ c.toNat ∧ c.toNat ≤ 90 then c.toNat + 32 else c.toNat := by
  have hcapital : (c.val ≥ 'A'.val ∧ c.val ≤ 'Z'.val) ↔ 65 ≤ c.toNat ∧ c.toNat ≤ 90 := by
    simp only [ge_iff_le, UInt32.le_iff_toNat_le]
    rfl
  unfold Char.toLower
  split
  · next h =>
    have hhigh : c.val.toNat ≤ 90 := (hcapital.mp h).2
    have hsum : (c.val + ('a'.val - 'A'.val)).toNat = (c.val.toNat + 32) % 2 ^ 32 :=
      UInt32.toNat_add _ _
    rw [if_pos (hcapital.mp h)]
    exact hsum.trans (Nat.mod_eq_of_lt (by omega))
  · next h => rw [if_neg (mt hcapital.mpr h)]

theorem toNat_toUpper (c : Char) :
    c.toUpper.toNat = if 97 ≤ c.toNat ∧ c.toNat ≤ 122 then c.toNat - 32 else c.toNat := by
  have hsmall : ('a'.val ≤ c.val ∧ c.val ≤ 'z'.val) ↔ 97 ≤ c.toNat ∧ c.toNat ≤ 122 := by
    simp only [UInt32.le_iff_toNat_le]
    rfl
  unfold Char.toUpper
  split
  · next h =>
    have hbounds : 97 ≤ c.val.toNat ∧ c.val.toNat ≤ 122 := hsmall.mp h
    -- the distance from a small letter to its capital is negative, and wraps
    have hsum : (c.val + ('A'.val - 'a'.val)).toNat = (c.val.toNat + (2 ^ 32 - 32)) % 2 ^ 32 :=
      UInt32.toNat_add _ _
    rw [if_pos (hsmall.mp h)]
    have hwrap : (c.val.toNat + (2 ^ 32 - 32)) % 2 ^ 32 = c.val.toNat - 32 := by omega
    exact hsum.trans hwrap
  · next h => rw [if_neg (mt hsmall.mpr h)]

theorem toUpper_eq_iff {c d : Char} : c.toUpper = d.toUpper ↔ c.toLower = d.toLower := by
  rw [← Char.toNat_inj, ← Char.toNat_inj, toNat_toUpper, toNat_toUpper, toNat_toLower,
    toNat_toLower]
  split <;> split <;> split <;> split <;> omega

theorem map_toUpper_eq_iff {cs ds : List Char} :
    cs.map Char.toUpper = ds.map Char.toUpper ↔ cs.map Char.toLower = ds.map Char.toLower := by
  induction cs generalizing ds with
  | nil => cases ds <;> simp
  | cons c cs ih => cases ds <;> simp [ih, toUpper_eq_iff]

/-- It makes no difference whether the letters are made small or capital. -/
theorem foldUpper_eq_iff {s t : String} :
    foldUpper s = foldUpper t ↔ foldLower s = foldLower t := by
  rw [foldUpper, foldUpper, foldLower, foldLower, String.ofList_inj, String.ofList_inj,
    map_toUpper_eq_iff]

theorem foldLower_eq_empty_iff {s : String} : foldLower s = "" ↔ s = "" := by
  rw [← String.toList_inj, ← String.toList_inj]
  simp [foldLower]

end Text

end FirewallRollout
