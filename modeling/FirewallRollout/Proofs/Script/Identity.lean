import FirewallRollout.Proofs.Rebuild.Selection
import FirewallRollout.Proofs.Rule.NormalForm
import FirewallRollout.Proofs.Script.Fingerprint

/-!
# Which scripts have one fingerprint

Scripts are digested alike exactly when their commands are the same in the same order. So what is not
in a command is not in the fingerprint: neither the format nor the server, nor what a rule is called,
where it comes in the order, or what is said about it.
-/
namespace FirewallRollout

/-- Rules that are alike, one by one, have the same commands. -/
theorem Rule.Compiled.unique {rules rules' : List Rule} {texts texts' : List String}
    (h : Compiled rules texts) (h' : Compiled rules' texts')
    (halike : List.Forall₂ Rule.Alike rules rules') : texts = texts' := by
  induction halike generalizing texts texts' with
  | nil =>
    cases h
    cases h'
    rfl
  | cons hrule _ ih =>
    cases h with
    | cons htext hrest =>
      cases h' with
      | cons htext' hrest' =>
        obtain ⟨c, hc, rfl⟩ := htext
        obtain ⟨c', hc', rfl⟩ := htext'
        obtain rfl := Except.ok.inj ((hrule.compile hc).symm.trans hc')
        rw [ih hrest hrest']

namespace Script

variable {server server' : String} {rules rules' : List Rule} {onlyEnabled onlyEnabled' : Bool}
  {format format' : Format} {s t : Script}

/-- The commands are all that is digested, and nothing of them is lost. -/
theorem hashed_eq_iff (hs : assemble server rules onlyEnabled format = .ok s)
    (ht : assemble server' rules' onlyEnabled' format' = .ok t) :
    s.hashed = t.hashed ↔ s.commands = t.commands := by
  constructor
  · exact commands_eq_of_hashed (newline_notMem_commands hs) (newline_notMem_commands ht)
  · intro hcommands
    unfold hashed
    rw [hcommands]

theorem fingerprint_eq_iff :
    s.fingerprint = t.fingerprint ↔ Sha256.digest s.hashed = Sha256.digest t.hashed := by
  unfold fingerprint
  exact ⟨Sha256.hex_injective, fun h => by rw [h]⟩

/-- Scripts of alike rules, in the order in which they are taken, have the same commands. -/
theorem commands_eq_of_alike (hs : assemble server rules onlyEnabled format = .ok s)
    (ht : assemble server' rules' onlyEnabled' format' = .ok t)
    (halike : List.Forall₂ Rule.Alike (selected rules onlyEnabled) (selected rules' onlyEnabled')) :
    s.commands = t.commands :=
  (compiled_commands hs).unique (compiled_commands ht) halike

/-- Two scripts that were assembled are digested from the same octets exactly when they have the same
commands. If that is not a collision of the digest, they have one fingerprint exactly when the same
commands are handed to the executor. Scripts of rules that are alike have one fingerprint, whatever
else is different about the rules and the scripts. -/
theorem fingerprint_identifies (hs : assemble server rules onlyEnabled format = .ok s)
    (ht : assemble server' rules' onlyEnabled' format' = .ok t) :
    (s.hashed = t.hashed ↔ s.commands = t.commands) ∧
    ((Sha256.digest s.hashed = Sha256.digest t.hashed → s.hashed = t.hashed) →
      ∀ w v : Rebuild.Worker, w.script = s → v.script = t →
        (s.fingerprint = t.fingerprint ↔ w.plan.commands = v.plan.commands)) ∧
    (List.Forall₂ Rule.Alike (selected rules onlyEnabled) (selected rules' onlyEnabled') →
      s.fingerprint = t.fingerprint) := by
  have hhashed := hashed_eq_iff hs ht
  refine ⟨hhashed, ?_, fun halike => ?_⟩
  · rintro hcollision w v rfl rfl
    rw [fingerprint_eq_iff]
    change _ ↔ w.script.commands = v.script.commands
    rw [← hhashed]
    exact ⟨hcollision, congrArg Sha256.digest⟩
  · rw [fingerprint_eq_iff, hhashed.mpr (commands_eq_of_alike hs ht halike)]

/-- One rule in two spellings, under two servers, and a rule with another port. -/
theorem fingerprint_identifies_spelled :
    let r : Rule :=
      { id := .number 1, server := "web", chain := "INPUT", action := "DROP",
        protocol := some "tcp", destPort := some "22" }
    let r' : Rule :=
      { id := .text "x", server := "db", table := " FILTER ", chain := "INPUT\n", action := "drop",
        protocol := some "Tcp", destPort := some "022", priority := 7, enabled := false,
        comment := some "moved" }
    let command (port : Nat) : Command :=
      { table := .filter, chain := .input, protocol := .tcp, source := none, sourcePort := none,
        destination := none, destinationPort := some (.single port), interface := none,
        action := .drop }
    let s : Script := ⟨"web", .plain, true, [⟨.number 1, 0, true, command 22⟩]⟩
    let t : Script := ⟨"db", .bash, false, [⟨.text "x", 7, false, command 22⟩]⟩
    let u : Script := ⟨"web", .plain, true, [⟨.number 1, 0, true, command 23⟩]⟩
    assemble "web" [r] true .plain = .ok s ∧ assemble "db" [r'] false .bash = .ok t ∧
      assemble "web" [{ r with destPort := some "23" }] true .plain = .ok u ∧
      s.fingerprint = t.fingerprint ∧ s.hashed ≠ u.hashed ∧ s.fingerprint ≠ u.fingerprint := by
  intro r r' command s t u
  have hs : assemble "web" [r] true .plain = .ok s := by decide +kernel
  have ht : assemble "db" [r'] false .bash = .ok t := by decide +kernel
  have hu : assemble "web" [{ r with destPort := some "23" }] true .plain = .ok u := by decide +kernel
  have halike : r.Alike r' := by
    constructor <;> decide +kernel
  have hselected : selected [r] true = [r] := List.mergeSort_singleton r
  have hselected' : selected [r'] false = [r'] := List.mergeSort_singleton r'
  have hdigest : Sha256.digest s.hashed ≠ Sha256.digest u.hashed := by decide +kernel
  have hcommands : s.commands ≠ u.commands := by decide +kernel
  obtain ⟨-, -, hspelled⟩ := fingerprint_identifies hs ht
  obtain ⟨hhashed, hsame, -⟩ := fingerprint_identifies hs hu
  refine ⟨hs, ht, hu, hspelled ?_, fun h => hcommands (hhashed.mp h), fun h => hcommands ?_⟩
  · rw [hselected, hselected']
    exact .cons halike .nil
  · let worker (script : Script) : Rebuild.Worker :=
      { task := .create "a" "web" 1 false 0, script, unchanged := false }
    exact (hsame (fun h => absurd h hdigest) (worker s) (worker u) rfl rfl).mp h

end Script
end FirewallRollout
