import FirewallRollout.Json.Token
import FirewallRollout.Json.Writer
import FirewallRollout.Proofs.Text.Decoding
import FirewallRollout.Proofs.Text.Numeral

/-!
# Tokens of what was written

The document of a datum is split into the tokens of that datum. A word or a number ends where the
next token begins, so that it is told what the scan has found once it is settled.
-/
namespace FirewallRollout.Json
open Text.Utf8 (toNat_ofNat)

mutual

/-- The tokens of a datum. -/
def tokensOf : Datum → List Token
  | .null | .unreadable => [.null]
  | .bool b => [.bool b]
  | .integer n => [.number (some n)]
  | .text s => [.text (some s)]
  | .list items => .openList :: tokensOfItems items ++ [.closeList]
  | .record entries => .openRecord :: tokensOfEntries entries ++ [.closeRecord]

/-- The tokens of items set apart by commas. -/
def tokensOfItems : List Datum → List Token
  | [] => []
  | [d] => tokensOf d
  | d :: rest => tokensOf d ++ .comma :: tokensOfItems rest

/-- The tokens of entries set apart by commas. -/
def tokensOfEntries : List (String × Datum) → List Token
  | [] => []
  | [(key, d)] => .text (some key) :: .colon :: tokensOf d
  | (key, d) :: rest => .text (some key) :: .colon :: tokensOf d ++ .comma :: tokensOfEntries rest

end

theorem tokensOfItems_cons_cons (d e : Datum) (rest : List Datum) :
    tokensOfItems (d :: e :: rest) = tokensOf d ++ .comma :: tokensOfItems (e :: rest) := by
  simp [tokensOfItems]

theorem tokensOfEntries_cons_cons (key : String) (d : Datum) (e : String × Datum)
    (rest : List (String × Datum)) :
    tokensOfEntries ((key, d) :: e :: rest) =
      .text (some key) :: .colon :: tokensOf d ++ .comma :: tokensOfEntries (e :: rest) := by
  simp [tokensOfEntries]

/-- A scan goes from one place to another through the octets of characters. -/
def Scans (s : Scan) (cs : List Char) (s' : Scan) : Prop :=
  (cs.flatMap String.utf8EncodeChar).foldlM Scan.step s = some s'

namespace Scans
variable {s s' s'' : Scan} {cs cs' : List Char}

theorem nil (s : Scan) : Scans s [] s := rfl

theorem append (h : Scans s cs s') (h' : Scans s' cs' s'') : Scans s (cs ++ cs') s'' := by
  unfold Scans at *
  rw [List.flatMap_append, List.foldlM_append, h]
  exact h'

/-- One octet, of a character of ASCII. -/
theorem ascii {c : Char} (hc : c.toNat < 0x80) (h : s.step (UInt8.ofNat c.toNat) = some s') :
    Scans s [c] s' := by
  rw [Scans, List.flatMap_singleton, Text.Utf8.encodeChar_ascii hc, List.foldlM_cons, h]
  rfl

end Scans

theorem ofNat_toNat_ascii {c : Char} (hc : c.toNat < 0x80) :
    Char.ofNat (UInt8.ofNat c.toNat).toNat = c := by
  rw [toNat_ofNat (by omega), Char.ofNat_toNat]

/-- The tokens that a scan has found, newest first, once the next one begins. -/
inductive Settled : Scan → List Token → Prop
  | between (done : List Token) : Settled ⟨.between, done⟩ done
  | bare {run : List Char} {t : Token} (h : bare? run.reverse = some t) (done : List Token) :
    Settled ⟨.bare run, done⟩ (t :: done)

theorem Settled.step {s : Scan} {done : List Token} (h : Settled s done) {b : UInt8}
    (hb : isBareOctet b = false) : s.step b = Scan.between done b := by
  cases h with
  | between => rfl
  | bare h done => simp [Scan.step, hb, h]

theorem Settled.finish {s : Scan} {done : List Token} (h : Settled s done) :
    s.finish = some done.reverse := by
  cases h with
  | between => rfl
  | bare h done => simp [Scan.finish, h]

/-- Characters are tokens whatever comes after the last of them. -/
def Closed (cs : List Char) (tokens : List Token) : Prop :=
  ∀ done, Scans ⟨.between, done⟩ cs ⟨.between, tokens.reverse ++ done⟩

/-- Characters are tokens if the next token begins after the last of them. -/
def Spelled (cs : List Char) (tokens : List Token) : Prop :=
  ∀ done, ∃ s, Scans ⟨.between, done⟩ cs s ∧ Settled s (tokens.reverse ++ done)

/-- A character that is a token of its own. -/
structure Marks (c : Char) (t : Token) : Prop where
  ascii : c.toNat < 0x80
  ends : isBareOctet (UInt8.ofNat c.toNat) = false
  token : ∀ done, Scan.between done (UInt8.ofNat c.toNat) = some ⟨.between, t :: done⟩

theorem marks_openList : Marks '[' .openList := ⟨by decide, by decide, fun _ => rfl⟩

theorem marks_closeList : Marks ']' .closeList := ⟨by decide, by decide, fun _ => rfl⟩

theorem marks_openRecord : Marks '{' .openRecord := ⟨by decide, by decide, fun _ => rfl⟩

theorem marks_closeRecord : Marks '}' .closeRecord := ⟨by decide, by decide, fun _ => rfl⟩

theorem marks_comma : Marks ',' .comma := ⟨by decide, by decide, fun _ => rfl⟩

theorem marks_colon : Marks ':' .colon := ⟨by decide, by decide, fun _ => rfl⟩

section Pieces
variable {cs cs' : List Char} {tokens tokens' : List Token} {c : Char} {t : Token}

theorem Closed.spelled (h : Closed cs tokens) : Spelled cs tokens :=
  fun done => ⟨_, h done, .between _⟩

theorem Closed.append_spelled (h : Closed cs tokens) (h' : Spelled cs' tokens') :
    Spelled (cs ++ cs') (tokens ++ tokens') := by
  intro done
  obtain ⟨s, hs, hsettled⟩ := h' (tokens.reverse ++ done)
  exact ⟨s, (h done).append hs, by simpa using hsettled⟩

theorem Spelled.append_mark (h : Spelled cs tokens) (hmark : Marks c t) :
    Closed (cs ++ [c]) (tokens ++ [t]) := by
  intro done
  obtain ⟨s, hs, hsettled⟩ := h done
  have hstep := (hsettled.step hmark.ends).trans (hmark.token _)
  simpa using hs.append (.ascii hmark.ascii hstep)

theorem spelled_nil : Spelled [] [] := fun done => ⟨_, .nil _, .between done⟩

theorem Marks.closed (hmark : Marks c t) : Closed [c] [t] := by
  simpa using spelled_nil.append_mark hmark

end Pieces

/-! ## Words -/

/-- Whether a character may stand in a word or a number. -/
def isBareChar (c : Char) : Bool := c.isAlpha || c.isDigit || c == '+' || c == '-' || c == '.'

theorem lt_of_isBareChar {c : Char} (h : isBareChar c = true) : c.toNat < 0x80 := by
  have hbelow : ∀ {high : UInt32}, c.val ≤ high → high.toNat < 0x80 → c.toNat < 0x80 :=
    fun h hhigh => Nat.lt_of_le_of_lt (UInt32.le_iff_toNat_le.mp h) hhigh
  simp only [isBareChar, Bool.or_eq_true, beq_iff_eq] at h
  rcases h with (((halpha | hdigit) | rfl) | rfl) | rfl
  · rcases (Bool.or_eq_true _ _).mp halpha with hupper | hlower
    · exact hbelow (of_decide_eq_true (p := _ ∧ _) hupper).2 (by decide)
    · exact hbelow (of_decide_eq_true ((Bool.and_eq_true _ _).mp hlower).2) (by decide)
  · exact hbelow (of_decide_eq_true ((Bool.and_eq_true _ _).mp hdigit).2) (by decide)
  all_goals decide

theorem isBareOctet_ofNat {c : Char} (h : isBareChar c = true) :
    isBareOctet (UInt8.ofNat c.toNat) = true := by
  rw [isBareOctet, ofNat_toNat_ascii (lt_of_isBareChar h)]
  exact h

/-- A word is scanned to its end. -/
theorem scans_run {cs : List Char} (h : ∀ c ∈ cs, isBareChar c = true) (run : List Char)
    (done : List Token) : Scans ⟨.bare run, done⟩ cs ⟨.bare (cs.reverse ++ run), done⟩ := by
  induction cs generalizing run with
  | nil => exact .nil _
  | cons c cs ih =>
    obtain ⟨hc, hcs⟩ := List.forall_mem_cons.mp h
    have hlt := lt_of_isBareChar hc
    have hstep : Scan.step ⟨.bare run, done⟩ (UInt8.ofNat c.toNat) =
        some ⟨.bare (c :: run), done⟩ := by
      simp only [Scan.step, isBareOctet_ofNat hc, if_true, ofNat_toNat_ascii hlt]
    have hrest := ih hcs (c :: run)
    rw [List.reverse_cons, List.append_assoc, List.singleton_append]
    exact (Scans.ascii hlt hstep).append hrest

theorem spelled_word {cs : List Char} {t : Token} (hne : cs ≠ [])
    (h : ∀ c ∈ cs, isBareChar c = true) (ht : bare? cs = some t) : Spelled cs [t] := by
  intro done
  obtain ⟨c, cs, rfl⟩ := List.exists_cons_of_ne_nil hne
  obtain ⟨hc, hcs⟩ := List.forall_mem_cons.mp h
  have hlt := lt_of_isBareChar hc
  have hstep : Scan.step ⟨.between, done⟩ (UInt8.ofNat c.toNat) = some ⟨.bare [c], done⟩ := by
    simp only [Scan.step, Scan.between, ofNat_toNat_ascii hlt]
    -- no character of a word is blank, a mark or a quote
    split
    case h_12 => rw [if_pos (isBareOctet_ofNat hc)]
    all_goals cases hc
  refine ⟨_, (Scans.ascii hlt hstep).append (scans_run hcs [c] done), .bare ?_ done⟩
  simpa using ht

/-! ## Numbers -/

/-- No numeral of two digits or more begins with a zero. -/
theorem length_le_one_of_zero {n : Nat} {cs : List Char} (h : (toString n).toList = '0' :: cs) :
    cs = [] := by
  by_contra hne
  obtain ⟨-, hdigits, hvalue⟩ := Text.decimal?_eq_some_iff.mp (h ▸ Text.decimal?_toString n)
  rw [Text.decimalFrom_zero_cons] at hvalue
  -- without the zero it would still be a numeral of the number, and so no shorter
  obtain ⟨zeros, hzeros⟩ := hvalue ▸ Text.isNumeral_of_digits hne (List.forall_mem_cons.mp hdigits).2
  have hlength := congrArg List.length hzeros
  rw [List.length_append, h, List.length_cons] at hlength
  omega

theorem digits_toString (n : Nat) :
    (toString n).toList ≠ [] ∧ ∀ c ∈ (toString n).toList, c.isDigit = true := by
  obtain ⟨hne, hdigits, -⟩ := Text.decimal?_eq_some_iff.mp (Text.decimal?_toString n)
  exact ⟨hne, hdigits⟩

/-- A numeral is read as an exact number, with or without a sign. -/
theorem number?_numeral (n : Nat) :
    number? (toString n).toList = some (.number (some n)) ∧
      (n ≠ 0 → number? ('-' :: (toString n).toList) = some (.number (some (-n)))) := by
  obtain ⟨hne, hdigits⟩ := digits_toString n
  have hvalue := Text.decimal?_toString n
  have hzero := @length_le_one_of_zero n
  generalize (toString n).toList = cs at *
  have htake : cs.takeWhile Char.isDigit = cs := List.takeWhile_eq_self_iff.mpr hdigits
  have hdrop : cs.dropWhile Char.isDigit = [] := List.dropWhile_eq_nil_iff.mpr hdigits
  have hlead : (cs.head? == some '0' && decide (1 < cs.length)) = false := by
    obtain ⟨c, cs, rfl⟩ := List.exists_cons_of_ne_nil hne
    by_cases hc : c = '0'
    · subst hc
      simp [hzero rfl]
    · simp [hc]
  have hsign : ∀ rest, cs ≠ '-' :: rest := by
    rintro rest rfl
    exact absurd (hdigits '-' (.head _)) (by decide)
  constructor
  · unfold number?
    split
    next negative unsigned hmatch =>
    split at hmatch
    · next rest => exact absurd rfl (hsign rest)
    · obtain ⟨rfl, rfl⟩ := Prod.mk.inj hmatch
      simp [htake, hdrop, hvalue, hlead]
  · intro hn
    simp [number?, htake, hdrop, hvalue, hlead, hn]

theorem bare?_eq_number? {c : Char} {cs : List Char} (h : c.isDigit = true ∨ c = '-') :
    bare? (c :: cs) = number? (c :: cs) := by
  have hword : ∀ (d : Char) (ds : List Char), d.isDigit = false → d ≠ '-' →
      String.ofList (c :: cs) = String.ofList (d :: ds) → False := by
    intro d ds hdigit hsign heq
    obtain ⟨rfl, -⟩ := List.cons.inj (String.ofList_injective heq)
    rcases h with h | h
    · rw [hdigit] at h
      cases h
    · exact hsign h
  unfold bare?
  split
  · next heq => exact (hword 'n' "ull".toList (by decide) (by decide) heq).elim
  · next heq => exact (hword 't' "rue".toList (by decide) (by decide) heq).elim
  · next heq => exact (hword 'f' "alse".toList (by decide) (by decide) heq).elim
  · rfl

theorem spelled_integer (n : Int) : Spelled (toString n).toList [.number (some n)] := by
  have hbare : ∀ m : Nat, ∀ c ∈ (toString m).toList, isBareChar c = true := fun m c hc => by
    simp [isBareChar, (digits_toString m).2 c hc]
  cases n with
  | ofNat m =>
    obtain ⟨hne, hdigits⟩ := digits_toString m
    refine spelled_word hne (hbare m) ?_
    obtain ⟨c, cs, hcs⟩ := List.exists_cons_of_ne_nil hne
    have hread := (number?_numeral m).1
    rw [hcs] at hread
    have hc : c.isDigit = true := hdigits c (hcs ▸ .head _)
    exact (congrArg bare? hcs).trans ((bare?_eq_number? (.inl hc)).trans hread)
  | negSucc m =>
    have htext : (toString (Int.negSucc m)).toList = '-' :: (toString (m + 1)).toList :=
      String.toList_append (s := "-") (t := toString (m + 1))
    rw [htext]
    refine spelled_word (by simp) (List.forall_mem_cons.mpr ⟨by decide, hbare _⟩) ?_
    rw [bare?_eq_number? (.inr rfl), (number?_numeral (m + 1)).2 (by omega)]
    rfl

/-! ## Strings -/

/-- Every octet of a character beyond ASCII is beyond ASCII. -/
theorem mem_encodeChar {c : Char} {b : UInt8} (h : b ∈ String.utf8EncodeChar c) :
    c.toNat < 0x80 ∧ b = UInt8.ofNat c.toNat ∨ 0x80 ≤ b.toNat := by
  have hleading : ∀ {mark width n : Nat}, 0 < width → 0x80 ≤ mark → mark + width ≤ 256 →
      b ∈ Text.Utf8.leading mark width n → 0x80 ≤ b.toNat := by
    intro mark width n hwidth hmark hmax hb
    have hmod := Nat.mod_lt n hwidth
    rw [List.mem_singleton.mp hb, toNat_ofNat (by omega)]
    omega
  have hcontinued : ∀ {octets : Nat → List UInt8} {n : Nat}, (b ∈ octets (n / 64) → 0x80 ≤ b.toNat) →
      b ∈ Text.Utf8.continued octets n → 0x80 ≤ b.toNat := by
    intro octets n hoctets hb
    rcases List.mem_append.mp hb with hb | hb
    · exact hoctets hb
    · exact hleading (by decide) (by decide) (by decide) hb
  rw [Text.Utf8.encodeChar_eq] at h
  split_ifs at h with h1 h2 h3
  · rw [Text.Utf8.leading, List.mem_singleton, Nat.mod_eq_of_lt h1] at h
    exact .inl ⟨h1, h⟩
  · exact .inr (hcontinued (hleading (by decide) (by decide) (by decide)) h)
  · exact .inr (hcontinued (hcontinued (hleading (by decide) (by decide) (by decide))) h)
  · exact .inr
      (hcontinued (hcontinued (hcontinued (hleading (by decide) (by decide) (by decide)))) h)

/-- Octets that stand for themselves in a string. -/
theorem foldlM_plain {octets : List UInt8}
    (h : ∀ b ∈ octets, b ≠ 0x22 ∧ b ≠ 0x5C ∧ 0x20 ≤ b.toNat) (run : List Piece) (done : List Token) :
    octets.foldlM Scan.step ⟨.quoted run, done⟩ =
      some ⟨.quoted ((octets.map .octet).reverse ++ run), done⟩ := by
  induction octets generalizing run with
  | nil => rfl
  | cons b octets ih =>
    obtain ⟨⟨hquote, hescape, hcontrol⟩, hoctets⟩ := List.forall_mem_cons.mp h
    have hlow : ¬ b < 0x20 := by
      rw [UInt8.lt_iff_toNat_lt]
      exact Nat.not_lt.mpr hcontrol
    have hstep : Scan.step ⟨.quoted run, done⟩ b = some ⟨.quoted (.octet b :: run), done⟩ := by
      simp [Scan.step, hquote, hescape, hlow]
    rw [List.foldlM_cons, hstep]
    simpa using ih hoctets (.octet b :: run)

/-- A character within quotes is scanned as pieces that stand for it. -/
def Escapes (c : Char) (pieces : List Piece) : Prop :=
  (∀ run done, Scans ⟨.quoted run, done⟩ (escape c) ⟨.quoted (pieces.reverse ++ run), done⟩) ∧
    ∀ rest, octetsOf (pieces ++ rest) = (octetsOf rest).map (String.utf8EncodeChar c ++ ·)

theorem octetsOf_octets (octets : List UInt8) (rest : List Piece) :
    octetsOf (octets.map .octet ++ rest) = (octetsOf rest).map (octets ++ ·) := by
  induction octets with
  | nil => simp
  | cons b octets ih => simp [octetsOf, ih, Function.comp_def]

/-- A backslash and a letter stand for one octet. -/
theorem escapes_short {c letter : Char} (hescape : escape c = ['\\', letter]) (hc : c.toNat < 0x80)
    (hletter : letter.toNat < 0x80) (hnumeric : UInt8.ofNat letter.toNat ≠ 0x75)
    (hshort : shortEscape? (UInt8.ofNat letter.toNat) = some (UInt8.ofNat c.toNat)) :
    ∃ pieces, Escapes c pieces := by
  refine ⟨[.octet (UInt8.ofNat c.toNat)], fun run done => ?_, fun rest => ?_⟩
  · rw [hescape]
    have hfirst : Scans ⟨.quoted run, done⟩ ['\\'] ⟨.escape run, done⟩ :=
      .ascii (by decide) (by simp [Scan.step])
    exact hfirst.append (.ascii hletter (by simp [Scan.step, hnumeric, hshort]))
  · rw [Text.Utf8.encodeChar_ascii hc]
    rfl

theorem hexDigit?_digitChar {n : Nat} (h : n < 16) :
    (Nat.digitChar n).toNat < 0x80 ∧ Text.hexDigit? (Nat.digitChar n) = some n := by
  interval_cases n <;> exact ⟨by decide, by decide⟩

/-- One hexadecimal digit of a numeric escape. -/
theorem scans_digit {d : Char} {n : Nat} (hd : d.toNat < 0x80) (hn : Text.hexDigit? d = some n)
    (run : List Piece) (done : List Token) (code digits : Nat) :
    Scans ⟨.numericEscape run code digits, done⟩ [d]
      (if 3 ≤ digits then ⟨.quoted (.unit (code * 16 + n) :: run), done⟩
        else ⟨.numericEscape run (code * 16 + n) (digits + 1), done⟩) := by
  refine .ascii hd ?_
  simp only [Scan.step, ofNat_toNat_ascii hd, hn, Option.map_some]

/-- A code unit that is no surrogate stands for its character. -/
theorem octetsOf_unit {c : Char} (hc : c.toNat < 0xD800) (rest : List Piece) :
    octetsOf (.unit c.toNat :: rest) = (octetsOf rest).map (String.utf8EncodeChar c ++ ·) := by
  have hpartner : (0xD800 ≤ c.toNat && c.toNat ≤ 0xDBFF) = false := by simp; omega
  have hlone : (0xDC00 ≤ c.toNat && c.toNat ≤ 0xDFFF) = false := by simp; omega
  have hencode : Text.Utf8.encode (Char.ofNat c.toNat).toString = String.utf8EncodeChar c := by
    have htext : c.toString = String.ofList [c] := String.toList_inj.mp (by simp)
    rw [Char.ofNat_toNat, htext, Text.Utf8.encode_ofList, List.flatMap_singleton]
  rw [← hencode]
  rw [octetsOf.eq_def (.unit c.toNat :: rest)]
  simp only [hpartner, hlone, Bool.false_eq_true, if_false]

/-- A numeric escape stands for a control character. -/
theorem escapes_numeric {c : Char} (hcontrol : c.toNat < 0x20)
    (hescape : escape c = ['\\', 'u', '0', '0', Nat.digitChar (c.toNat / 16),
      Nat.digitChar (c.toNat % 16)]) : ∃ pieces, Escapes c pieces := by
  obtain ⟨hhigh, hhigh'⟩ := hexDigit?_digitChar (n := c.toNat / 16) (by omega)
  obtain ⟨hlow, hlow'⟩ := hexDigit?_digitChar (n := c.toNat % 16) (by omega)
  have hcode : c.toNat / 16 * 16 + c.toNat % 16 = c.toNat := Nat.div_add_mod' ..
  refine ⟨[.unit c.toNat], fun run done => ?_, octetsOf_unit (by omega)⟩
  have hzero : Text.hexDigit? '0' = some 0 := by decide
  have hfirst : Scans ⟨.quoted run, done⟩ ['\\'] ⟨.escape run, done⟩ :=
    .ascii (by decide) (by simp [Scan.step])
  have hsecond : Scans ⟨.escape run, done⟩ ['u'] ⟨.numericEscape run 0 0, done⟩ :=
    .ascii (by decide) (by simp [Scan.step])
  have hzeros : Scans ⟨.numericEscape run 0 0, done⟩ ['0', '0'] ⟨.numericEscape run 0 2, done⟩ :=
    (scans_digit (by decide) hzero run done 0 0).append (scans_digit (by decide) hzero run done 0 1)
  have hthird : Scans ⟨.numericEscape run 0 2, done⟩ [Nat.digitChar (c.toNat / 16)]
      ⟨.numericEscape run (c.toNat / 16) 3, done⟩ := by
    simpa using scans_digit hhigh hhigh' run done 0 2
  have hfourth : Scans ⟨.numericEscape run (c.toNat / 16) 3, done⟩ [Nat.digitChar (c.toNat % 16)]
      ⟨.quoted (.unit c.toNat :: run), done⟩ := by
    simpa [hcode] using scans_digit hlow hlow' run done (c.toNat / 16) 3
  rw [hescape]
  exact (((hfirst.append hsecond).append hzeros).append hthird).append hfourth

/-- A character that needs no escape stands for itself. -/
theorem escapes_plain {c : Char} (hescape : escape c = [c]) (hquote : c ≠ '\x22')
    (hbackslash : c ≠ '\\') (hcontrol : ¬ c.toNat < 0x20) : ∃ pieces, Escapes c pieces := by
  refine ⟨(String.utf8EncodeChar c).map .octet, fun run done => ?_, octetsOf_octets _⟩
  rw [Scans, hescape, List.flatMap_singleton]
  refine foldlM_plain (fun b hb => ?_) run done
  rcases mem_encodeChar hb with ⟨hc, rfl⟩ | hb
  · have hne : ∀ d : Char, d.toNat < 0x80 → c ≠ d →
        UInt8.ofNat c.toNat ≠ UInt8.ofNat d.toNat := by
      intro d hd hcd heq
      have htoNat := congrArg UInt8.toNat heq
      rw [toNat_ofNat (by omega), toNat_ofNat (by omega)] at htoNat
      exact hcd (Char.toNat_inj.mp htoNat)
    rw [toNat_ofNat (by omega)]
    exact ⟨hne '\x22' (by decide) hquote, hne '\\' (by decide) hbackslash, by omega⟩
  · -- the octets of a character beyond ASCII are none of these
    refine ⟨?_, ?_, by omega⟩
    all_goals
      rintro rfl
      revert hb
      decide

/-- Every character within quotes is scanned as pieces that stand for it. -/
theorem exists_escapes (c : Char) : ∃ pieces, Escapes c pieces := by
  by_cases hquote : c = '\x22'
  · subst hquote
    exact escapes_short rfl (by decide) (by decide) (by decide) (by decide)
  by_cases hbackslash : c = '\\'
  · subst hbackslash
    exact escapes_short rfl (by decide) (by decide) (by decide) (by decide)
  by_cases hshort : c = '\n' ∨ c = '\r' ∨ c = '\t' ∨ c = '\x08' ∨ c = '\x0C'
  · rcases hshort with rfl | rfl | rfl | rfl | rfl <;>
      exact escapes_short rfl (by decide) (by decide) (by decide) (by decide)
  obtain ⟨hn, hr, ht, hb, hf⟩ : c ≠ '\n' ∧ c ≠ '\r' ∧ c ≠ '\t' ∧ c ≠ '\x08' ∧ c ≠ '\x0C' := by
    tauto
  have hb' : c.toNat ≠ 0x08 := fun h => hb (Char.toNat_inj.mp h)
  have hf' : c.toNat ≠ 0x0C := fun h => hf (Char.toNat_inj.mp h)
  by_cases hcontrol : c.toNat < 0x20
  · exact escapes_numeric hcontrol
      (by simp [escape, hquote, hbackslash, hn, hr, ht, hb', hf', hcontrol])
  · exact escapes_plain (by simp [escape, hquote, hbackslash, hn, hr, ht, hb', hf', hcontrol])
      hquote hbackslash hcontrol

/-- A text within quotes is one token. -/
theorem closed_quote (s : String) : Closed (quote s) [.text (some s)] := by
  have hchars : ∀ cs : List Char, ∃ pieces,
      (∀ run done,
        Scans ⟨.quoted run, done⟩ (cs.flatMap escape) ⟨.quoted (pieces.reverse ++ run), done⟩) ∧
        octetsOf pieces = some (cs.flatMap String.utf8EncodeChar) := by
    intro cs
    induction cs with
    | nil => exact ⟨[], fun run done => .nil _, rfl⟩
    | cons c cs ih =>
      obtain ⟨first, hfirst, hoctets⟩ := exists_escapes c
      obtain ⟨rest, hrest, hoctets'⟩ := ih
      refine ⟨first ++ rest, fun run done => ?_, ?_⟩
      · rw [List.flatMap_cons, List.reverse_append, List.append_assoc]
        exact (hfirst run done).append (hrest _ done)
      · rw [hoctets, hoctets', Option.map_some, List.flatMap_cons]
  obtain ⟨pieces, hpieces, hoctets⟩ := hchars s.toList
  have htext : textOf pieces = some s := by
    rw [textOf, hoctets, ← Text.Utf8.encode_ofList, String.ofList_toList]
    exact Text.Utf8.decode?_encode s
  intro done
  have hopen : Scans ⟨.between, done⟩ ['\x22'] ⟨.quoted [], done⟩ := .ascii (by decide) rfl
  have hclose : Scans ⟨.quoted (pieces.reverse ++ []), done⟩ ['\x22']
      ⟨.between, .text (some s) :: done⟩ := by
    refine .ascii (by decide) ?_
    simp [Scan.step, htext]
  exact (hopen.append (hpieces [] done)).append hclose

/-! ## Documents -/

mutual

/-- The characters of a datum spell its tokens. -/
theorem spelled_charsOf : ∀ d : Datum, Spelled (charsOf d) (tokensOf d)
  | .null | .unreadable => spelled_word (t := .null) (by decide) (List.all_eq_true.mp (by decide)) (by decide)
  | .bool true => spelled_word (t := .bool true) (by decide) (List.all_eq_true.mp (by decide)) (by decide)
  | .bool false => spelled_word (t := .bool false) (by decide) (List.all_eq_true.mp (by decide)) (by decide)
  | .integer n => spelled_integer n
  | .text s => (closed_quote s).spelled
  | .list items =>
    ((marks_openList.closed.append_spelled (spelled_items items)).append_mark marks_closeList).spelled
  | .record entries =>
    ((marks_openRecord.closed.append_spelled (spelled_entries entries)).append_mark
      marks_closeRecord).spelled

theorem spelled_items : ∀ items : List Datum, Spelled (charsOfItems items) (tokensOfItems items)
  | [] => spelled_nil
  | [d] => spelled_charsOf d
  | d :: e :: rest => by
    have hrest := ((spelled_charsOf d).append_mark marks_comma).append_spelled
      (spelled_items (e :: rest))
    simpa [charsOfItems, tokensOfItems] using hrest

theorem spelled_entries : ∀ entries : List (String × Datum),
    Spelled (charsOfEntries entries) (tokensOfEntries entries)
  | [] => spelled_nil
  | [(key, d)] => by
    have hentry := ((closed_quote key).spelled.append_mark marks_colon).append_spelled
      (spelled_charsOf d)
    simpa [charsOfEntries, tokensOfEntries] using hentry
  | (key, d) :: e :: rest => by
    have hentry := ((closed_quote key).spelled.append_mark marks_colon).append_spelled
      (spelled_charsOf d)
    have hrest := (hentry.append_mark marks_comma).append_spelled (spelled_entries (e :: rest))
    simpa [charsOfEntries, tokensOfEntries] using hrest

end

/-- What is written of a datum is split into its tokens. -/
theorem tokens?_write (d : Datum) : tokens? (Text.Utf8.encode (write d)) = some (tokensOf d) := by
  obtain ⟨s, hs, hsettled⟩ := spelled_charsOf d []
  rw [Scans, ← Text.Utf8.encode_ofList] at hs
  rw [tokens?, write, hs, Option.bind_some, hsettled.finish, List.append_nil, List.reverse_reverse]

end FirewallRollout.Json
