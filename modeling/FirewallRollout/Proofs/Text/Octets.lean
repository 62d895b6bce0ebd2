import FirewallRollout.Text.Utf8
import Mathlib.Data.List.Basic

/-!
# The order of octets

The octets of a character start with a mark that grows with their number, and go on with its bits,
the highest first. So texts that are compared by code points are compared by octets as well.
-/
namespace FirewallRollout.Text.Utf8

theorem encode_ofList (l : List Char) :
    encode (.ofList l) = l.flatMap String.utf8EncodeChar := by
  rw [encode, String.toUTF8, String.toByteArray_ofList, List.utf8Encode, List.data_toByteArray]

/-- The first octet, under a mark for how many there are. -/
def leading (mark width n : Nat) : List UInt8 := [UInt8.ofNat (n % width + mark)]

/-- Octets with one more after them, for the six bits that come last. -/
def continued (octets : Nat → List UInt8) (n : Nat) : List UInt8 :=
  octets (n / 64) ++ leading 0x80 64 n

/-- The octets of a character, by how many there are. -/
theorem encodeChar_eq (c : Char) : String.utf8EncodeChar c =
    if c.toNat < 0x80 then leading 0 0x80 c.toNat
    else if c.toNat < 0x800 then continued (leading 0xC0 0x20) c.toNat
    else if c.toNat < 0x10000 then continued (continued (leading 0xE0 0x10)) c.toNat
    else continued (continued (continued (leading 0xF0 0x8))) c.toNat := by
  have hvalue : c.val.toNat = c.toNat := rfl
  unfold String.utf8EncodeChar continued leading
  simp only [hvalue, Nat.div_div_eq_div_mul, Nat.reduceMul, List.cons_append, List.nil_append]
  split_ifs with hfirst
  · rw [Nat.mod_eq_of_lt (by omega), Nat.add_zero]
  all_goals first | rfl | omega

/-- Octets of numbers below a bound come in the order of the numbers, whatever follows them. -/
def Ascends (octets : Nat → List UInt8) (bound : Nat) : Prop :=
  ∀ m n, m < n → n < bound → ∀ x y, octets m ++ x < octets n ++ y

/-- Octets come before others, whatever the numbers are. -/
def Below (octets octets' : Nat → List UInt8) : Prop := ∀ m n x y, octets m ++ x < octets' n ++ y

theorem leading_append_lt {mark mark' width width' m n : Nat} (hn : n % width' + mark' < 256)
    (h : m % width + mark < n % width' + mark') (x y : List UInt8) :
    leading mark width m ++ x < leading mark' width' n ++ y := by
  refine List.cons_lt_cons_iff.mpr (.inl (UInt8.lt_iff_toNat_lt.mpr ?_))
  rw [UInt8.toNat_ofNat', UInt8.toNat_ofNat', Nat.mod_eq_of_lt hn, Nat.mod_eq_of_lt (by omega)]
  exact h

theorem ascends_leading {mark width : Nat} (h : mark + width ≤ 256) :
    Ascends (leading mark width) width := by
  intro m n hlt hbound x y
  have hm : m % width = m := Nat.mod_eq_of_lt (Nat.lt_trans hlt hbound)
  have hn : n % width = n := Nat.mod_eq_of_lt hbound
  exact leading_append_lt (by omega) (by omega) x y

theorem Ascends.continued {octets : Nat → List UInt8} {bound : Nat} (h : Ascends octets bound) :
    Ascends (continued octets) (64 * bound) := by
  intro m n hlt hbound x y
  simp only [Utf8.continued, List.append_assoc]
  rcases Nat.lt_or_eq_of_le (Nat.div_le_div_right (c := 64) (Nat.le_of_lt hlt)) with hdiv | hdiv
  · exact h _ _ hdiv (by omega) _ _
  · rw [hdiv]
    exact List.append_left_lt (leading_append_lt (by omega) (by omega) x y)

theorem below_leading {mark mark' width width' : Nat} (hpos : 0 < width) (hpos' : 0 < width')
    (h : mark + width ≤ mark') (h' : mark' + width' ≤ 256) :
    Below (leading mark width) (leading mark' width') := by
  intro m n x y
  have hm := Nat.mod_lt m hpos
  have hn := Nat.mod_lt n hpos'
  exact leading_append_lt (by omega) (by omega) x y

theorem Below.left {octets octets' : Nat → List UInt8} (h : Below octets octets') :
    Below (continued octets) octets' := by
  intro m n x y
  rw [continued, List.append_assoc]
  exact h _ n _ y

theorem Below.right {octets octets' : Nat → List UInt8} (h : Below octets octets') :
    Below octets (continued octets') := by
  intro m n x y
  rw [continued, List.append_assoc]
  exact h m _ x _

/-- A lesser character has lesser octets, whatever follows them. -/
theorem encodeChar_lt {c d : Char} (h : c < d) (x y : List UInt8) :
    String.utf8EncodeChar c ++ x < String.utf8EncodeChar d ++ y := by
  have hlt : c.toNat < d.toNat := h
  have hd : d.toNat < 0x110000 := by
    rcases d.valid with hvalid | ⟨-, hvalid⟩
    · exact Nat.lt_trans hvalid (by decide)
    · exact hvalid
  rw [encodeChar_eq, encodeChar_eq]
  generalize c.toNat = m at *
  generalize d.toNat = n at *
  have h₁ : Ascends (leading 0 0x80) 0x80 := ascends_leading (by decide)
  have h₂ : Ascends (continued (leading 0xC0 0x20)) (64 * 0x20) :=
    (ascends_leading (by decide)).continued
  have h₃ : Ascends (continued (continued (leading 0xE0 0x10))) (64 * (64 * 0x10)) :=
    (ascends_leading (by decide)).continued.continued
  have h₄ : Ascends (continued (continued (continued (leading 0xF0 8)))) (64 * (64 * (64 * 8))) :=
    (ascends_leading (by decide)).continued.continued.continued
  -- with as many octets the bits decide, and else the marks
  split_ifs
  all_goals try omega
  · exact h₁ m n hlt (by omega) x y
  · exact (below_leading (by decide) (by decide) (by decide) (by decide)).right m n x y
  · exact (below_leading (by decide) (by decide) (by decide) (by decide)).right.right m n x y
  · exact (below_leading (by decide) (by decide) (by decide) (by decide)).right.right.right m n x y
  · exact h₂ m n hlt (by omega) x y
  · exact (below_leading (by decide) (by decide) (by decide) (by decide)).left.right.right m n x y
  · exact (below_leading (by decide) (by decide) (by decide) (by decide)).left.right.right.right
      m n x y
  · exact h₃ m n hlt (by omega) x y
  · exact (below_leading (by decide) (by decide) (by decide)
      (by decide)).left.left.right.right.right m n x y
  · exact h₄ m n hlt (by omega) x y

theorem flatMap_encodeChar_lt {a b : List Char} (h : a < b) :
    a.flatMap String.utf8EncodeChar < b.flatMap String.utf8EncodeChar := by
  induction h with
  | @nil c b =>
    obtain ⟨o, octets, hoctets⟩ := List.exists_cons_of_ne_nil (String.utf8EncodeChar_ne_nil (c := c))
    rw [List.flatMap_nil, List.flatMap_cons, hoctets, List.cons_append]
    exact List.nil_lt_cons o _
  | cons h ih =>
    rw [List.flatMap_cons, List.flatMap_cons]
    exact List.append_left_lt ih
  | rel h =>
    rw [List.flatMap_cons, List.flatMap_cons]
    exact encodeChar_lt h _ _

/-- Texts in the order of their code points are in the order of their octets. -/
theorem encode_lt {s t : String} (h : s < t) : encode s < encode t := by
  rw [← String.ofList_toList (s := s), ← String.ofList_toList (s := t), encode_ofList, encode_ofList]
  exact flatMap_encodeChar_lt (String.lt_iff.mp h)

end FirewallRollout.Text.Utf8
