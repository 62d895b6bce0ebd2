import FirewallRollout.Proofs.Script.Assembly

/-!
# What a fingerprint tells

The octets that are digested determine the commands, since no command has a line feed in it. So two
scripts with one fingerprint have the same commands, or their octets are a collision of the digest.
-/
namespace FirewallRollout

namespace Sha256

theorem digitChar_injective {m n : Nat} (hm : m < 16) (hn : n < 16)
    (h : Nat.digitChar m = Nat.digitChar n) : m = n := by
  have hall : ∀ m < 16, ∀ n < 16, Nat.digitChar m = Nat.digitChar n → m = n := by decide
  exact hall m hm n hn h

/-- Octets are read back from their hexadecimal digits. -/
theorem hex_injective {a b : List UInt8} (h : hex a = hex b) : a = b := by
  unfold hex at h
  rw [String.ofList_inj] at h
  induction a generalizing b with
  | nil =>
    cases b with
    | nil => rfl
    | cons y b => simp at h
  | cons x a ih =>
    cases b with
    | nil => simp at h
    | cons y b =>
      simp only [List.flatMap_cons, List.cons_append, List.nil_append, List.cons.injEq] at h
      obtain ⟨hhigh, hlow, hrest⟩ := h
      have hx := x.toNat_lt
      have hy := y.toNat_lt
      have hdiv := digitChar_injective (by omega) (by omega) hhigh
      have hmod := digitChar_injective (by omega) (by omega) hlow
      have hxy : x = y := by
        apply UInt8.toNat_inj.mp
        omega
      rw [hxy, ih hrest]

end Sha256

namespace Text.Utf8

theorem encode_append (s t : String) : encode (s ++ t) = encode s ++ encode t := by
  simp [encode, String.toUTF8]

theorem encode_injective {s t : String} (h : encode s = encode t) : s = t := by
  unfold encode String.toUTF8 at h
  rw [Array.toList_inj] at h
  exact String.toByteArray_inj.mp (ByteArray.ext h)

end Text.Utf8

/-- What comes before the first occurrence of an element, and what comes after it. -/
theorem append_cons_injective {α : Type} {x : α} {l l' r r' : List α} (hl : x ∉ l) (hl' : x ∉ l')
    (h : l ++ x :: r = l' ++ x :: r') : l = l' ∧ r = r' := by
  induction l generalizing l' with
  | nil =>
    cases l' with
    | nil => exact ⟨rfl, (List.cons.inj h).2⟩
    | cons y l' =>
      obtain ⟨rfl, -⟩ := List.cons.inj h
      exact absurd List.mem_cons_self hl'
  | cons y l ih =>
    cases l' with
    | nil =>
      obtain ⟨rfl, -⟩ := List.cons.inj h
      exact absurd List.mem_cons_self hl
    | cons z l' =>
      simp only [List.cons_append, List.cons.injEq] at h
      obtain ⟨hll, hr⟩ := ih (fun hx => hl (.tail _ hx)) (fun hx => hl' (.tail _ hx)) h.2
      exact ⟨by rw [h.1, hll], hr⟩

/-- Lists that are each closed by one element are told apart when none of them contains it. -/
theorem flatMap_closed_injective {α : Type} {x : α} {a b : List (List α)}
    (ha : ∀ l ∈ a, x ∉ l) (hb : ∀ l ∈ b, x ∉ l)
    (h : (a.flatMap fun l => l ++ [x]) = b.flatMap fun l => l ++ [x]) : a = b := by
  induction a generalizing b with
  | nil =>
    cases b with
    | nil => rfl
    | cons l' b => simp at h
  | cons l a ih =>
    cases b with
    | nil => simp at h
    | cons l' b =>
      simp only [List.flatMap_cons, List.append_assoc, List.singleton_append] at h
      obtain ⟨rfl, hrest⟩ := append_cons_injective (ha l (.head _)) (hb l' (.head _)) h
      rw [ih (fun k hk => ha k (.tail _ hk)) (fun k hk => hb k (.tail _ hk)) hrest]

namespace Script

/-- The octets that are digested are those of the commands as lines. -/
theorem hashed_eq_encode (s : Script) :
    s.hashed = Text.Utf8.encode
      (.ofList ((s.commands.map String.toList).flatMap fun line => line ++ ['\n'])) := by
  unfold hashed
  induction s.commands with
  | nil => rfl
  | cons command commands ih =>
    have hfeed : Text.Utf8.encode "\n" = [0x0A] := by decide
    rw [List.flatMap_cons, ih, List.map_cons, List.flatMap_cons, String.ofList_append,
      Text.Utf8.encode_append, String.ofList_append, String.ofList_toList,
      Text.Utf8.encode_append, ← hfeed]

/-- Scripts without line feeds in their commands that are digested alike have the same commands. -/
theorem commands_eq_of_hashed {s t : Script} (hs : ∀ c ∈ s.commands, '\n' ∉ c.toList)
    (ht : ∀ c ∈ t.commands, '\n' ∉ c.toList) (h : s.hashed = t.hashed) :
    s.commands = t.commands := by
  rw [hashed_eq_encode, hashed_eq_encode] at h
  have hlines := flatMap_closed_injective (by simpa using hs) (by simpa using ht)
    (String.ofList_inj.mp (Text.Utf8.encode_injective h))
  exact (List.map_inj_right fun _ _ => String.toList_inj.mp).mp hlines

/-- Every command of a script that was assembled is a compiled rule. -/
theorem newline_notMem_commands {server : String} {rules : List Rule} {onlyEnabled : Bool}
    {format : Format} {script : Script} (h : assemble server rules onlyEnabled format = .ok script) :
    ∀ c ∈ script.commands, '\n' ∉ c.toList := by
  intro c hc
  obtain ⟨r, -, command, hcommand, rfl⟩ := compiled_of_mem_commands h hc
  exact Command.newline_notMem_text hcommand

end Script

namespace Rebuild

theorem Scripted.newline_notMem {server : String} {script : Script} (h : Scripted server script) :
    ∀ c ∈ script.commands, '\n' ∉ c.toList := by
  obtain ⟨inventory, total, hscript, -⟩ := h
  obtain ⟨rules, hrules⟩ := State.scriptFor_ok hscript
  exact Script.newline_notMem_commands hrules

/-- Scripts with one fingerprint have the same commands unless their octets collide. -/
theorem Scripted.commands_eq {server server' : String} {s t : Script} (hs : Scripted server s)
    (ht : Scripted server' t) (h : s.fingerprint = t.fingerprint)
    (hcollision : Sha256.digest s.hashed = Sha256.digest t.hashed → s.hashed = t.hashed) :
    s.commands = t.commands :=
  Script.commands_eq_of_hashed hs.newline_notMem ht.newline_notMem
    (hcollision (Sha256.hex_injective h))

end Rebuild
end FirewallRollout
