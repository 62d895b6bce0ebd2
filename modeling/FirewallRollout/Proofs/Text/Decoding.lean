import FirewallRollout.Proofs.Text.Octets
import Mathlib.Tactic.IntervalCases

/-!
# Decoding what was encoded

The octets of a text are read as that text, whether strictly or leniently: the scan goes through the
octets of one character after the other and finds nothing ill-formed on its way.
-/
namespace FirewallRollout.Text.Utf8

theorem toNat_ofNat {n : Nat} (h : n < 256) : (UInt8.ofNat n).toNat = n := by
  rw [UInt8.toNat_ofNat', Nat.mod_eq_of_lt h]

/-- What octets after the first stand for, as long as some are owed. -/
theorem scan_continuation {bits owed n : Nat} {low high : UInt8} (hlow : low.toNat ≤ n % 64 + 0x80)
    (hhigh : n % 64 + 0x80 ≤ high.toNat) (rest : List UInt8) :
    scan (some ⟨bits, owed, low, high⟩) (leading 0x80 64 n ++ rest) =
      if owed ≤ 1 then some (Char.ofNat (bits * 64 + n % 64)) :: scan none rest
      else scan (some ⟨bits * 64 + n % 64, owed - 1, 0x80, 0xBF⟩) rest := by
  have hoctet : (UInt8.ofNat (n % 64 + 0x80)).toNat = n % 64 + 0x80 := toNat_ofNat (by omega)
  have hrange : (low ≤ UInt8.ofNat (n % 64 + 0x80) && UInt8.ofNat (n % 64 + 0x80) ≤ high) =
      true := by
    simp only [Bool.and_eq_true, decide_eq_true_eq, UInt8.le_iff_toNat_le, hoctet]
    exact ⟨hlow, hhigh⟩
  rw [leading, List.singleton_append, scan]
  simp only [hrange, if_true, hoctet, Nat.add_sub_cancel]

/-- A character that its first octet has begun: the bits so far, how many octets are owed, and the
range of the next one. -/
structure Begins (k bits owed low high : Nat) : Prop where
  lt : k < 256
  lead : ∃ p, lead (UInt8.ofNat k) = some (.inr p) ∧ p.bits = bits ∧ p.owed = owed ∧
    p.low.toNat = low ∧ p.high.toNat = high

theorem begins_two {k : Nat} (h : 2 ≤ k ∧ k < 0x20) : Begins (k + 0xC0) k 1 0x80 0xBF := by
  obtain ⟨hlow, hhigh⟩ := h
  refine ⟨by omega, ?_⟩
  interval_cases k <;> exact ⟨_, rfl, rfl, rfl, rfl, rfl⟩

theorem begins_three {k : Nat} (h : k < 0x10) :
    Begins (k + 0xE0) k 2 (if k = 0 then 0xA0 else 0x80) (if k = 0xD then 0x9F else 0xBF) := by
  refine ⟨by omega, ?_⟩
  interval_cases k <;> exact ⟨_, rfl, rfl, rfl, rfl, rfl⟩

theorem begins_four {k : Nat} (h : k ≤ 4) :
    Begins (k + 0xF0) k 3 (if k = 0 then 0x90 else 0x80) (if k = 4 then 0x8F else 0xBF) := by
  refine ⟨by omega, ?_⟩
  interval_cases k <;> exact ⟨_, rfl, rfl, rfl, rfl, rfl⟩

/-- The second octet of a character that has begun. -/
theorem Begins.scan {k bits owed low high n : Nat} (h : Begins k bits owed low high)
    (hlow : low ≤ n % 64 + 0x80) (hhigh : n % 64 + 0x80 ≤ high) (rest : List UInt8) :
    scan none (UInt8.ofNat k :: (leading 0x80 64 n ++ rest)) =
      if owed ≤ 1 then some (Char.ofNat (bits * 64 + n % 64)) :: Utf8.scan none rest
      else Utf8.scan (some ⟨bits * 64 + n % 64, owed - 1, 0x80, 0xBF⟩) rest := by
  obtain ⟨p, hlead, rfl, rfl, rfl, rfl⟩ := h.lead
  rw [Utf8.scan, hlead]
  exact scan_continuation hlow hhigh rest

/-- A character of ASCII is one octet. -/
theorem encodeChar_ascii {c : Char} (hc : c.toNat < 0x80) :
    String.utf8EncodeChar c = [UInt8.ofNat c.toNat] := by
  rw [encodeChar_eq, if_pos hc, leading, Nat.mod_eq_of_lt hc, Nat.add_zero]

theorem flatMap_encodeChar_ascii {cs : List Char} (h : ∀ c ∈ cs, c.toNat < 0x80) :
    cs.flatMap String.utf8EncodeChar = cs.map fun c => UInt8.ofNat c.toNat := by
  rw [← List.flatMap_singleton' cs, List.map_flatMap, List.flatMap_assoc]
  exact List.flatMap_congr fun c hc => by simp [encodeChar_ascii (h c hc)]

theorem toNat_bounds (c : Char) : c.toNat < 0x110000 ∧ (c.toNat < 0xD800 ∨ 0xDFFF < c.toNat) := by
  rcases c.valid with hvalid | ⟨hvalid, hlt⟩
  · have hlt : c.toNat < 0xD800 := hvalid
    omega
  · exact ⟨hlt, .inr hvalid⟩

/-- The octets of a character are scanned as that character. -/
theorem scan_encodeChar (c : Char) (rest : List UInt8) :
    scan none (String.utf8EncodeChar c ++ rest) = some c :: scan none rest := by
  obtain ⟨hmax, hsurrogate⟩ := toNat_bounds c
  have hc : Char.ofNat c.toNat = c := Char.ofNat_toNat c
  rw [encodeChar_eq]
  generalize c.toNat = n at *
  unfold continued
  split_ifs with h1 h2 h3
  · have hoctet : (UInt8.ofNat (n % 0x80 + 0)).toNat = n := by
      rw [Nat.mod_eq_of_lt h1, Nat.add_zero, toNat_ofNat (by omega)]
    have hlead : lead (UInt8.ofNat (n % 0x80 + 0)) = some (.inl c) := by
      rw [lead, if_pos (UInt8.lt_iff_toNat_lt.mpr (hoctet.symm ▸ h1)), hoctet, hc]
    rw [leading, List.singleton_append, scan, hlead]
  · have hbits : n / 64 % 0x20 = n / 64 := Nat.mod_eq_of_lt (by omega)
    have hbegins : Begins (n / 64 % 0x20 + 0xC0) (n / 64) 1 0x80 0xBF :=
      hbits.symm ▸ begins_two ⟨by omega, by omega⟩
    rw [leading, List.append_assoc, List.singleton_append, hbegins.scan (by omega) (by omega),
      if_pos (Nat.le_refl 1), Nat.div_add_mod', hc]
  · have hbits : n / 64 / 64 % 0x10 = n / 64 / 64 := Nat.mod_eq_of_lt (by omega)
    have hbegins := begins_three (k := n / 64 / 64) (by omega)
    rw [leading, hbits, List.append_assoc, List.append_assoc, List.singleton_append,
      hbegins.scan (by split_ifs <;> omega) (by split_ifs <;> omega), if_neg (by decide),
      scan_continuation (by simp) (by simp; omega), if_pos (Nat.le_refl 1), Nat.div_add_mod',
      Nat.div_add_mod', hc]
  · have hbits : n / 64 / 64 / 64 % 8 = n / 64 / 64 / 64 := Nat.mod_eq_of_lt (by omega)
    have hbegins := begins_four (k := n / 64 / 64 / 64) (by omega)
    rw [leading, hbits, List.append_assoc, List.append_assoc, List.append_assoc,
      List.singleton_append, hbegins.scan (by split_ifs <;> omega) (by split_ifs <;> omega),
      if_neg (by decide), scan_continuation (by simp) (by simp; omega), if_neg (by decide),
      scan_continuation (by simp) (by simp; omega), if_pos (Nat.le_refl 1), Nat.div_add_mod',
      Nat.div_add_mod', Nat.div_add_mod', hc]

theorem scan_encode (s : String) : scan none (encode s) = s.toList.map some := by
  have hlist : ∀ cs : List Char, scan none (cs.flatMap String.utf8EncodeChar) = cs.map some := by
    intro cs
    induction cs with
    | nil => rfl
    | cons c cs ih => rw [List.flatMap_cons, scan_encodeChar, ih, List.map_cons]
  rw [← String.ofList_toList (s := s), encode_ofList, hlist, String.toList_ofList]

/-- The octets of a text are read as that text. -/
theorem decode?_encode (s : String) : decode? (encode s) = some s := by
  have hall : (s.toList.map some).mapM id = some s.toList := by
    rw [List.mapM_map]
    exact (List.mapM_pure (m := Option)).trans (congrArg some (List.map_id _))
  rw [decode?, scan_encode, hall, Option.map_some, String.ofList_toList]

theorem decodeLossy_encode (s : String) : decodeLossy (encode s) = s := by
  rw [decodeLossy, scan_encode, List.map_map]
  simp [Function.comp_def]

end FirewallRollout.Text.Utf8
