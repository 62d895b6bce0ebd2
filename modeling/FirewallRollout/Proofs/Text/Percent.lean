import FirewallRollout.Proofs.Text.Decoding
import FirewallRollout.Proofs.Text.Pieces
import FirewallRollout.Text.Percent

/-!
# Percent-encoding

A text with every octet escaped that is neither a letter nor a digit of ASCII nor one of four marks.
It may stand in a path as well as in a query, and is read in both as the text it was made of.
-/
namespace FirewallRollout.Text.Percent

/-- Whether a character stands for itself. -/
def isUnreserved (c : Char) : Bool :=
  c.isAlphanum || c == '-' || c == '.' || c == '_' || c == '~'

/-- An octet as it stands in an encoded text. -/
def escapeOctet (b : UInt8) : List Char :=
  if isUnreserved (Char.ofNat b.toNat) then [Char.ofNat b.toNat]
  else ['%', Nat.digitChar (b.toNat / 16), Nat.digitChar (b.toNat % 16)]

/-- A percent-encoded text. -/
def encode (s : String) : String := .ofList ((Utf8.encode s).flatMap escapeOctet)

/-- A character of an encoded text. -/
def isEncoded (c : Char) : Bool := isUnreserved c || c == '%'

/-- What is known of an octet if it is known of all that there are. -/
theorem forall_octet {p : UInt8 → Prop} (h : ∀ n < 256, p (UInt8.ofNat n)) (b : UInt8) : p b := by
  have hb := h b.toNat b.toNat_lt
  rwa [UInt8.ofNat_toNat] at hb

theorem isEncoded_escapeOctet (b : UInt8) : ∀ c ∈ escapeOctet b, isEncoded c = true := by
  have hall : ∀ b, (escapeOctet b).all isEncoded = true := forall_octet (by decide +kernel)
  exact List.all_eq_true.mp (hall b)

theorem isEncoded_encode (s : String) : ∀ c ∈ (encode s).toList, isEncoded c = true := by
  intro c hc
  rw [encode, String.toList_ofList] at hc
  obtain ⟨b, -, hb⟩ := List.mem_flatMap.mp hc
  exact isEncoded_escapeOctet b c hb

/-- The octets of an octet as it stands in an encoded text. -/
def spelled (b : UInt8) : List UInt8 := (escapeOctet b).map fun c => UInt8.ofNat c.toNat

theorem spelled_ascii (b : UInt8) : ∀ c ∈ escapeOctet b, c.toNat < 0x80 := by
  have hall : ∀ b, (escapeOctet b).Forall (·.toNat < 0x80) := forall_octet (by decide +kernel)
  exact List.forall_iff_forall_mem.mp (hall b)

theorem encode_encode (s : String) : Utf8.encode (encode s) = (Utf8.encode s).flatMap spelled := by
  rw [encode, Utf8.encode_ofList, List.flatMap_assoc]
  congr 1
  funext b
  exact Utf8.flatMap_encodeChar_ascii (spelled_ascii b)

/-- An octet is read back from how it is spelled. -/
theorem decodeOctets_spelled (b : UInt8) (rest : List UInt8) :
    decodeOctets (spelled b ++ rest) = b :: decodeOctets rest := by
  by_cases hplain : isUnreserved (Char.ofNat b.toNat) = true
  · have hspelled : ∀ b : UInt8, isUnreserved (Char.ofNat b.toNat) = true →
        spelled b = [b] ∧ (b == 0x25) = false := forall_octet (by decide +kernel)
    obtain ⟨hself, hescape⟩ := hspelled b hplain
    rw [hself, List.singleton_append, decodeOctets.eq_def]
    simp only [hescape, Bool.false_eq_true, if_false]
  · have hdigits : ∀ b : UInt8,
        hexOctet? (UInt8.ofNat (Nat.digitChar (b.toNat / 16)).toNat) =
          some (UInt8.ofNat (b.toNat / 16)) ∧
        hexOctet? (UInt8.ofNat (Nat.digitChar (b.toNat % 16)).toNat) =
          some (UInt8.ofNat (b.toNat % 16)) ∧
        UInt8.ofNat (b.toNat / 16) * 16 + UInt8.ofNat (b.toNat % 16) = b :=
      forall_octet (by decide +kernel)
    obtain ⟨hhigh, hlow, hsum⟩ := hdigits b
    rw [spelled, escapeOctet, if_neg hplain, List.map_cons, List.map_cons, List.map_singleton,
      List.cons_append, List.cons_append, List.singleton_append, decodeOctets.eq_def]
    simp only [hhigh, hlow, hsum]
    rfl

theorem decodeOctets_flatMap_spelled (octets : List UInt8) :
    decodeOctets (octets.flatMap spelled) = octets := by
  induction octets with
  | nil => rfl
  | cons b octets ih => rw [List.flatMap_cons, decodeOctets_spelled, ih]

/-- In a path, an encoded text is read as the text it was made of. -/
theorem decode?_encode (s : String) : decode? (encode s) = some s := by
  rw [decode?, encode_encode, decodeOctets_flatMap_spelled, Utf8.decode?_encode]

/-- In a query, an encoded text is read as the text it was made of. -/
theorem decodeForm_encode (s : String) : decodeForm (encode s) = s := by
  have hplus : ∀ b ∈ Utf8.encode (encode s), (b == 0x2B) = false := by
    intro b hb
    rw [encode_encode] at hb
    obtain ⟨b', -, hb'⟩ := List.mem_flatMap.mp hb
    -- a quantifier over octets would be decided over all of them, for each spelling
    have hspelled : ∀ b', ((spelled b').all fun b => !(b == 0x2B)) = true :=
      forall_octet (by decide +kernel)
    simpa using List.all_eq_true.mp (hspelled b') b hb'
  have hsame : (Utf8.encode (encode s)).map (fun b => if b == 0x2B then 0x20 else b) =
      Utf8.encode (encode s) := by
    conv_rhs => rw [← List.map_id (Utf8.encode (encode s))]
    exact List.map_congr_left fun b hb => by simp [hplus b hb]
  rw [decodeForm, hsame, encode_encode, decodeOctets_flatMap_spelled, Utf8.decodeLossy_encode]

/-- A query of one pair is split at its first equals sign. -/
theorem formPairs_pair {key value : List Char} (hkey : '&' ∉ key) (hequals : '=' ∉ key)
    (hvalue : '&' ∉ value) :
    formPairs (.ofList (key ++ '=' :: value)) =
      [(decodeForm (.ofList key), decodeForm (.ofList value))] := by
  have hpieces : (String.ofList (key ++ '=' :: value)).splitOn "&" =
      [.ofList (key ++ '=' :: value)] := by
    rw [show "&" = String.singleton '&' from rfl, splitOn_singleton, pieces_of_notMem]
    simp [hkey, hvalue]
  have hne : (String.ofList (key ++ '=' :: value) != "") = true := by
    simp [← String.toList_inj]
  have hname : ∀ c ∈ key, (c != '=') = true := fun c hc => by
    simpa using fun heq : c = '=' => hequals (heq ▸ hc)
  rw [formPairs, hpieces, List.filter_singleton, hne, cond_true, List.map_singleton]
  simp only [String.toList_ofList, List.takeWhile_append_of_pos hname,
    List.dropWhile_append_of_pos hname]
  simp

end FirewallRollout.Text.Percent
