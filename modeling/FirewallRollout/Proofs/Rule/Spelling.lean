import FirewallRollout.Proofs.Rule.Argument
import Mathlib.Data.List.DropRight

/-!
# Spellings of a rule

What is written of a parsed field is read back as that field. The other way round, a field has many
spellings that are read as one: with blanks around it, a table, an action and a protocol in any
case, and a port with leading zeros.
-/
namespace FirewallRollout

namespace Text

theorem trimList_eq_rdropWhile (cs : List Char) :
    trimList cs = (cs.dropWhile isBlank).rdropWhile isBlank := rfl

/-- What is trimmed has no blanks left at its ends. -/
theorem trimList_trimList (cs : List Char) : trimList (trimList cs) = trimList cs := by
  have hfront : (trimList cs).dropWhile isBlank = trimList cs := by
    rw [trimList_eq_rdropWhile]
    obtain ⟨rest, hrest⟩ := List.rdropWhile_prefix isBlank (cs.dropWhile isBlank)
    have hhead := List.head?_dropWhile_not isBlank cs
    cases hkept : (cs.dropWhile isBlank).rdropWhile isBlank with
    | nil => rfl
    | cons c kept =>
      -- the first character that is kept is the first one that was not dropped
      rw [← hrest, hkept] at hhead
      rw [List.dropWhile_cons_of_neg]
      simpa using hhead
  rw [trimList_eq_rdropWhile (trimList cs), hfront, trimList_eq_rdropWhile,
    List.rdropWhile_idempotent]

@[simp] theorem trim_trim (s : String) : trim (trim s) = trim s := by
  rw [← String.toList_inj]
  simp [trimList_trimList]

theorem trim_of_present {value : Option String} {v : String} (h : present value = some v) :
    trim v = v := by
  obtain ⟨hmap, -⟩ := Option.filter_eq_some_iff.mp h
  obtain ⟨s, -, rfl⟩ := Option.map_eq_some_iff.mp hmap
  exact trim_trim s

theorem decimalFrom_eq_ofDigitChars (acc : Nat) (cs : List Char) :
    decimalFrom acc cs = Nat.ofDigitChars 10 cs acc := by
  induction cs generalizing acc with
  | nil => unfold decimalFrom; rfl
  | cons c cs ih =>
    unfold decimalFrom
    rw [ih, Nat.ofDigitChars_cons, Nat.mul_comm]
    simp

/-- A zero in front does not count. -/
theorem decimalFrom_zero_cons (cs : List Char) : decimalFrom 0 ('0' :: cs) = decimalFrom 0 cs := by
  simp [decimalFrom_eq_ofDigitChars, Nat.ofDigitChars_cons]

theorem decimal?_toString (n : Nat) : decimal? (toString n).toList = some n := by
  have hdigits : (toString n).toList = Nat.toDigits 10 n := by
    rw [Nat.toString_eq_ofList_toDigits, String.toList_ofList]
  have hall : (Nat.toDigits 10 n).all Char.isDigit = true :=
    List.all_eq_true.mpr fun c hc => Nat.isDigit_of_mem_toDigits (by decide) (by decide) hc
  rw [hdigits, decimal?, hall, decimalFrom_eq_ofDigitChars,
    Nat.ofDigitChars_toDigits (by decide) (by decide)]
  simp [Nat.toDigits_ne_nil]

theorem decimal?_eq_some_iff {cs : List Char} {n : Nat} :
    decimal? cs = some n ↔ cs ≠ [] ∧ (∀ c ∈ cs, c.isDigit = true) ∧ decimalFrom 0 cs = n := by
  unfold decimal?
  by_cases hne : cs = []
  · simp [hne]
  · by_cases hall : ∀ c ∈ cs, c.isDigit = true
    · simpa [hne, List.all_eq_true.mpr hall] using fun _ => hall
    · simp [hne, hall]

end Text

namespace Port

theorem number?_eq_some_iff {cs : List Char} {n : Nat} :
    number? cs = some n ↔ Text.decimal? cs = some n ∧ 1 ≤ n ∧ n ≤ max := by
  simp [number?, Option.filter_eq_some_iff]

theorem number?_toString {n : Nat} (h : 1 ≤ n ∧ n ≤ max) :
    number? (toString n).toList = some n :=
  number?_eq_some_iff.mpr ⟨Text.decimal?_toString n, h⟩

theorem number?_of_colon {cs : List Char} (h : ':' ∈ cs) : number? cs = none := by
  rw [Option.eq_none_iff_forall_ne_some]
  intro n hn
  have hdigits := (Text.decimal?_eq_some_iff.mp (number?_eq_some_iff.mp hn).1).2.1
  exact absurd (hdigits ':' h) (by decide)

/-- The port of the parts of a text at its colons. -/
def ofParts : List (List Char) → Option Port
  | [low] => (number? low).map single
  | [low, high] =>
    match number? low, number? high with
    | some m, some n => if m ≤ n then some (span m n) else none
    | _, _ => none
  | _ => none

/-- Parts that a colon goes through make no port. -/
theorem ofParts_append {low : List Char} {before after : List Char} :
    ofParts (low :: (before.splitOn ':' ++ after.splitOn ':')) = none := by
  obtain ⟨a, as, ha⟩ := List.exists_cons_of_ne_nil (List.splitOnP_ne_nil (· == ':') before)
  obtain ⟨b, bs, hb⟩ := List.exists_cons_of_ne_nil (List.splitOnP_ne_nil (· == ':') after)
  rw [List.splitOn_eq_splitOnP, List.splitOn_eq_splitOnP, ha, hb]
  cases as <;> rfl

theorem parse?_eq_ofParts (s : String) : parse? s = ofParts (s.toList.splitOn ':') := by
  have hlow : ':' ∉ s.toList.takeWhile (· != ':') := fun h =>
    absurd (List.mem_takeWhile_imp h) (by simp)
  have hparts := List.takeWhile_append_dropWhile (p := (· != ':')) (l := s.toList)
  have hcolon := List.head?_dropWhile_not (· != ':') s.toList
  simp only [parse?]
  cases hrest : s.toList.dropWhile (· != ':') with
  | nil =>
    rw [hrest, List.append_nil] at hparts
    have hsplit : s.toList.splitOn ':' = [s.toList.takeWhile (· != ':')] := by
      conv_lhs => rw [← hparts]
      exact List.splitOn_eq_singleton hlow
    rw [hsplit]
    rfl
  | cons c high =>
    rw [hrest] at hcolon hparts
    obtain rfl : c = ':' := by simpa using hcolon
    have hsplit : s.toList.splitOn ':' = s.toList.takeWhile (· != ':') :: high.splitOn ':' := by
      conv_lhs => rw [← hparts]
      rw [List.splitOn_eq_splitOnP, List.splitOnP_append_cons _ _ (by simp),
        ← List.splitOn_eq_splitOnP, List.splitOn_eq_singleton hlow]
      rfl
    rw [hsplit]
    by_cases hhigh : ':' ∈ high
    · -- a second colon: the upper end is no number
      obtain ⟨before, after, rfl⟩ := List.append_of_mem hhigh
      rw [List.splitOn_eq_splitOnP, List.splitOnP_append_cons _ _ (by simp),
        ← List.splitOn_eq_splitOnP, ← List.splitOn_eq_splitOnP, ofParts_append]
      simp [number?_of_colon hhigh]
    · rw [List.splitOn_eq_singleton hhigh]
      rfl

/-- A zero in front of a number does not count: it was none before and is none after. -/
theorem number?_zero_cons (cs : List Char) : number? ('0' :: cs) = number? cs := by
  ext n
  rw [number?_eq_some_iff, number?_eq_some_iff, Text.decimal?_eq_some_iff,
    Text.decimal?_eq_some_iff, Text.decimalFrom_zero_cons]
  by_cases hcs : cs = []
  · have hzero : Text.decimalFrom 0 [] = 0 := by unfold Text.decimalFrom; rfl
    simp only [hcs, hzero]
    omega
  · have hdigit : '0'.isDigit = true := by decide
    simp [hcs, hdigit]

theorem number?_dropWhile_zero (cs : List Char) :
    number? (cs.dropWhile (· == '0')) = number? cs := by
  induction cs with
  | nil => rfl
  | cons c cs ih =>
    by_cases hc : c = '0'
    · rw [hc, List.dropWhile_cons_of_pos (by simp), ih, number?_zero_cons]
    · rw [List.dropWhile_cons_of_neg (by simpa using hc)]

/-- The parts of a port at its colons, each without the zeros in front of it. -/
def significantParts (s : String) : List (List Char) :=
  (s.toList.splitOn ':').map fun part => part.dropWhile (· == '0')

theorem parse?_eq_of_significantParts (s : String) : parse? s = ofParts (significantParts s) := by
  rw [parse?_eq_ofParts, significantParts]
  match s.toList.splitOn ':' with
  | [] => rfl
  | [low] => simp [ofParts, number?_dropWhile_zero]
  | [low, high] => simp [ofParts, number?_dropWhile_zero]
  | _ :: _ :: _ :: _ => rfl

/-- The ports that there are. -/
def IsValid : Port → Prop
  | single n => 1 ≤ n ∧ n ≤ max
  | span m n => 1 ≤ m ∧ m ≤ n ∧ n ≤ max

theorem isValid_of_parse? {s : String} {p : Port} (h : parse? s = some p) : p.IsValid := by
  rw [parse?_eq_ofParts] at h
  unfold ofParts at h
  split at h
  · obtain ⟨n, hn, rfl⟩ := Option.map_eq_some_iff.mp h
    exact (number?_eq_some_iff.mp hn).2
  · split at h
    · next m n hm hn =>
      split at h
      · next hle =>
        obtain rfl := Option.some.inj h
        exact ⟨(number?_eq_some_iff.mp hm).2.1, hle, (number?_eq_some_iff.mp hn).2.2⟩
      · cases h
    · cases h
  · cases h

/-- What is written of a port is read as that port. -/
theorem parse?_text {p : Port} (h : p.IsValid) : parse? p.text = some p := by
  have hcolon : ∀ n : Nat, ':' ∉ (toString n).toList := fun n hn =>
    absurd ((Text.decimal?_eq_some_iff.mp (Text.decimal?_toString n)).2.1 ':' hn) (by decide)
  rw [parse?_eq_ofParts]
  cases p with
  | single n =>
    have hparts : (single n).text.toList.splitOn ':' = [(toString n).toList] :=
      List.splitOn_eq_singleton (hcolon n)
    rw [hparts, ofParts, number?_toString h]
    rfl
  | span m n =>
    obtain ⟨hm, hle, hn⟩ := h
    have htext : (span m n).text.toList = (toString m).toList ++ ':' :: (toString n).toList := by
      simp [text, render]
    have hparts : (span m n).text.toList.splitOn ':' =
        [(toString m).toList, (toString n).toList] := by
      rw [htext, List.splitOn_eq_splitOnP, List.splitOnP_append_cons _ _ (by simp),
        ← List.splitOn_eq_splitOnP, ← List.splitOn_eq_splitOnP,
        List.splitOn_eq_singleton (hcolon m), List.splitOn_eq_singleton (hcolon n)]
      rfl
    rw [hparts, ofParts, number?_toString ⟨hm, by omega⟩, number?_toString ⟨by omega, hn⟩]
    exact if_pos hle

end Port

/-! ## Names -/

theorem Table.parse?_name (t : Table) : Table.parse? t.name = some t := by
  cases t <;> decide

theorem Action.parse?_name (a : Action) : Action.parse? a.name = some a := by
  cases a <;> decide

theorem Protocol.parse?_name (p : Protocol) : Protocol.parse? p.name = some p := by
  cases p <;> decide

/-- A chain that was read is read again from its name. -/
theorem Chain.parse?_name {s : String} {c : Chain} (h : Chain.parse? s = some c) :
    Chain.parse? c.name = some c := by
  unfold Chain.parse? at h
  split at h
  case h_6 name h1 h2 h3 h4 h5 =>
    split at h
    · next hname =>
      obtain rfl := Option.some.inj h
      have htrim : Text.trim (Text.trim s) = Text.trim s := Text.trim_trim s
      unfold Chain.parse?
      simp only [Chain.name, htrim]
      split <;> simp_all
    · cases h
  all_goals
    obtain rfl := Option.some.inj h
    decide

end FirewallRollout
