import FirewallRollout.Inventory
import FirewallRollout.Proofs.Keyed
import Mathlib.Logic.Function.Basic

/-!
# What an inventory holds

An inventory stands for a map from known servers to maps from identifiers to rules. The edits of the
two go together, and an inventory that was made by edits holds each rule once and under its own server.
-/
namespace FirewallRollout

namespace Inventory

/-- A change of an inventory. -/
inductive Edit where
  | register (server : String)
  | upsert (r : Rule)
  | remove (server : String) (id : RuleId)

/-- The inventory after an edit; a removal that is refused leaves it as it is. -/
def edited (inv : Inventory) : Edit → Inventory
  | .register server => inv.register server
  | .upsert r => inv.upsert r
  | .remove server id =>
    match inv.remove server id with
    | .ok (_, inv) => inv
    | .error _ => inv

/-- The inventory that some edits make. -/
def ofEdits (edits : List Edit) : Inventory := edits.foldl edited empty

/-- The known servers, each with its rules by identifier. -/
abbrev Holdings := String → Option (RuleId → Option Rule)

namespace Holdings

/-- The rules of a server, none if it is not known. -/
def under (held : Holdings) (server : String) : RuleId → Option Rule :=
  (held server).getD fun _ => none

/-- The map after an edit: a write takes the place of what was there, and a removal drops it. -/
def edited (held : Holdings) : Edit → Holdings
  | .register server => Function.update held server (some (held.under server))
  | .upsert r =>
    Function.update held r.server (some (Function.update (held.under r.server) r.id (some r)))
  | .remove server id =>
    Function.update held server ((held server).map fun kept => Function.update kept id none)

def ofEdits (edits : List Edit) : Holdings := edits.foldl edited fun _ => none

end Holdings

/-- What an inventory holds. -/
def holdings (inv : Inventory) : Holdings := fun server =>
  (inv.shelf? server).map fun rules id => rules.find? (·.id == id)

/-- Every rule is held once, and under its own server. -/
structure Sound (inv : Inventory) : Prop where
  servers : (inv.shelves.map Prod.fst).Nodup
  ids : ∀ {server rules}, inv.shelf? server = some rules → (rules.map Rule.id).Nodup
  owned : ∀ {server rules}, inv.shelf? server = some rules → ∀ r ∈ rules, r.server = server

section Shelves
variable (inv : Inventory)

theorem contains_iff {server : String} :
    inv.contains server = true ↔ server ∈ inv.shelves.map Prod.fst := by
  simp [contains]

theorem contains_eq_isSome (server : String) : inv.contains server = (inv.shelf? server).isSome := by
  rw [contains, shelf?, Assoc.lookup_eq_find?, Option.isSome_map, Bool.eq_iff_iff,
    List.find?_isSome, List.any_eq_true]

theorem shelf?_alter (server : String) (change : List Rule → List Rule) (server' : String) :
    (inv.alter server change).shelf? server' =
      if server' = server then some (change ((inv.shelf? server).getD []))
      else inv.shelf? server' := by
  have hcontains := inv.contains_eq_isSome server
  unfold alter
  split
  · next hknown =>
    rw [hknown] at hcontains
    obtain ⟨rules, hrules⟩ := Option.isSome_iff_exists.mp hcontains.symm
    have hmap : (inv.shelves.map fun s => if s.1 == server then (server, change s.2) else s) =
        inv.shelves.map fun s => if s.1 == server then (s.1, change s.2) else s := by
      apply List.map_congr_left
      intro s _
      by_cases hs : s.1 = server <;> simp [hs]
    rw [hrules, shelf?, hmap, Assoc.lookup_eq_find?,
      Keyed.find?_map_at Prod.fst inv.shelves (fun s => (s.1, change s.2)) fun _ => rfl]
    rw [shelf?, Assoc.lookup_eq_find?] at hrules
    obtain ⟨s, hs, rfl⟩ := Option.map_eq_some_iff.mp hrules
    split
    · rw [hs]
      rfl
    · rw [shelf?, Assoc.lookup_eq_find?]
  · next hunknown =>
    rw [Bool.eq_false_iff.mpr hunknown, eq_comm, Option.isSome_eq_false_iff,
      Option.isNone_iff_eq_none] at hcontains
    rw [hcontains, shelf?, List.lookup_append]
    rw [shelf?] at hcontains
    split
    · next hserver => simp [hserver, hcontains]
    · next hserver => simp [shelf?, List.lookup_cons, beq_false_of_ne hserver]

/-- The known servers after a change under one of them. -/
theorem servers_alter (server : String) (change : List Rule → List Rule) :
    (inv.alter server change).shelves.map Prod.fst =
      if inv.contains server then inv.shelves.map Prod.fst
      else inv.shelves.map Prod.fst ++ [server] := by
  unfold alter
  split
  · rw [List.map_map]
    apply List.map_congr_left
    intro s _
    by_cases hs : s.1 = server <;> simp [hs]
  · simp

end Shelves

section Rules
variable (r : Rule) (rules : List Rule)

theorem find?_putRule (id : RuleId) :
    (putRule r rules).find? (·.id == id) =
      if id = r.id then some r else rules.find? (·.id == id) :=
  Keyed.find?_put Rule.id rules r id

theorem mem_putRule {x : Rule} (h : x ∈ putRule r rules) : x = r ∨ x ∈ rules := by
  unfold putRule at h
  split at h
  · obtain ⟨old, hold, rfl⟩ := List.mem_map.mp h
    split
    · exact .inl rfl
    · exact .inr hold
  · rcases List.mem_append.mp h with h | h
    · exact .inr h
    · exact .inl (List.mem_singleton.mp h)

theorem nodup_putRule (h : (rules.map Rule.id).Nodup) : ((putRule r rules).map Rule.id).Nodup := by
  unfold putRule
  split
  · have hids : (rules.map fun old => if old.id == r.id then r else old).map Rule.id =
        rules.map Rule.id := by
      rw [List.map_map]
      apply List.map_congr_left
      intro old _
      by_cases hold : old.id = r.id <;> simp [hold]
    rw [hids]
    exact h
  · next hnew =>
    rw [List.map_append, List.nodup_append]
    refine ⟨h, by simp, ?_⟩
    rintro id hid id' hid' rfl
    obtain ⟨old, hold, rfl⟩ := List.mem_map.mp hid
    obtain hold' : old.id = r.id := by simpa using hid'
    exact hnew (List.any_eq_true.mpr ⟨old, hold, by simpa using hold'⟩)

end Rules

section Edits
variable (inv : Inventory)

/-- A removal takes out the stored rule, or is refused where there is none. -/
theorem remove_eq (server : String) (id : RuleId) :
    inv.remove server id =
      match inv.holdings server with
      | none => .error (.notFound .server server)
      | some kept =>
        match kept id with
        | none => .error (.notFound .rule id.display)
        | some r => .ok (r, inv.alter server fun rules => rules.filter (·.id != id)) := by
  unfold remove holdings
  cases inv.shelf? server <;> rfl

/-- What a removal leaves: all rules where nothing is stored, and else all but the stored one. -/
theorem edited_remove (server : String) (id : RuleId) :
    inv.edited (.remove server id) =
      if ((inv.holdings server).bind (· id)).isSome
      then inv.alter server fun rules => rules.filter (·.id != id) else inv := by
  simp only [edited, remove_eq]
  cases inv.holdings server with
  | none => rfl
  | some kept =>
    rw [Option.bind_some]
    cases hkept : kept id <;> simp [hkept]

theorem holdings_alter (server : String) (change : List Rule → List Rule) :
    (inv.alter server change).holdings = Function.update inv.holdings server
      (some fun id => (change ((inv.shelf? server).getD [])).find? (·.id == id)) := by
  funext server'
  rw [holdings, shelf?_alter, Function.update_apply]
  split <;> rfl

theorem under_holdings (server : String) (id : RuleId) :
    inv.holdings.under server id = ((inv.shelf? server).getD []).find? (·.id == id) := by
  unfold Holdings.under holdings
  cases inv.shelf? server <;> rfl

/-- An edit does to an inventory what it does to the map that the inventory stands for. -/
theorem holdings_edited (e : Edit) : (inv.edited e).holdings = inv.holdings.edited e := by
  cases e with
  | register server =>
    rw [edited, register, holdings_alter, Holdings.edited]
    congr 2
    funext id
    exact (inv.under_holdings server id).symm
  | upsert r =>
    rw [edited, upsert, holdings_alter, Holdings.edited]
    congr 2
    funext id
    rw [find?_putRule, Function.update_apply, under_holdings]
  | remove server id =>
    rw [edited_remove, Holdings.edited]
    cases hheld : inv.holdings server with
    | none =>
      have hsame : Function.update inv.holdings server none = inv.holdings :=
        hheld ▸ Function.update_eq_self server inv.holdings
      simp [hsame]
    | some kept =>
      cases hkept : kept id with
      | none =>
        have hkeep : Function.update kept id none = kept := hkept ▸ Function.update_eq_self id kept
        have hsame : Function.update inv.holdings server (some kept) = inv.holdings :=
          hheld ▸ Function.update_eq_self server inv.holdings
        simp [hkept, hkeep, hsame]
      | some r =>
        obtain ⟨rules, hrules, rfl⟩ := Option.map_eq_some_iff.mp hheld
        rw [Option.bind_some, hkept, Option.isSome_some, if_pos rfl, holdings_alter, hrules,
          Option.map_some, Option.getD_some]
        congr 2
        funext id'
        rw [Keyed.find?_filter_ne Rule.id, Function.update_apply]

end Edits

namespace Sound
variable {inv : Inventory} (hinv : inv.Sound)
include hinv

/-- A change under one server that keeps identifiers apart and owners in place. -/
theorem alter (server : String) {change : List Rule → List Rule}
    (hids : ∀ rules, (rules.map Rule.id).Nodup → ((change rules).map Rule.id).Nodup)
    (howned : ∀ rules, (∀ r ∈ rules, r.server = server) → ∀ r ∈ change rules, r.server = server) :
    (inv.alter server change).Sound := by
  -- the rules that are there before the change, if the server is known
  have hbefore : (((inv.shelf? server).getD []).map Rule.id).Nodup ∧
      ∀ r ∈ (inv.shelf? server).getD [], r.server = server := by
    cases hrules : inv.shelf? server with
    | none => simp
    | some rules => exact ⟨hinv.ids hrules, hinv.owned hrules⟩
  refine ⟨?_, fun {server' rules} h => ?_, fun {server' rules} h => ?_⟩
  · rw [servers_alter]
    split
    · exact hinv.servers
    · next hnew =>
      rw [contains_iff] at hnew
      rw [List.nodup_append]
      refine ⟨hinv.servers, by simp, ?_⟩
      rintro s hs s' hs' rfl
      exact hnew (List.mem_singleton.mp hs' ▸ hs)
  · rw [shelf?_alter] at h
    split at h
    · obtain rfl := Option.some.inj h
      exact hids _ hbefore.1
    · exact hinv.ids h
  · rw [shelf?_alter] at h
    split at h
    · next hserver =>
      obtain rfl := Option.some.inj h
      subst hserver
      exact howned _ hbefore.2
    · exact hinv.owned h

theorem edited (e : Edit) : (inv.edited e).Sound := by
  cases e with
  | register server => exact hinv.alter server (fun _ h => h) fun _ h => h
  | upsert r =>
    refine hinv.alter r.server (fun rules h => nodup_putRule r rules h) fun rules h x hx => ?_
    rcases mem_putRule r rules hx with rfl | hx
    · rfl
    · exact h x hx
  | remove server id =>
    rw [edited_remove]
    split
    · refine hinv.alter server (fun rules h => ?_) fun rules h x hx => h x (List.mem_filter.mp hx).1
      exact h.sublist (List.filter_sublist.map Rule.id)
    · exact hinv

end Sound

theorem sound_empty : empty.Sound where
  servers := List.nodup_nil
  ids h := by cases h
  owned h := by cases h

/-- Edits make an inventory that holds every rule once and under its own server. -/
theorem sound_ofEdits (edits : List Edit) : (ofEdits edits).Sound := by
  have hfold : ∀ {inv : Inventory}, inv.Sound → (edits.foldl edited inv).Sound := by
    induction edits with
    | nil => exact fun h => h
    | cons e edits ih => exact fun h => ih (h.edited e)
  exact hfold sound_empty

/-- Edits make an inventory that stands for the map that the same edits make. -/
theorem holdings_ofEdits (edits : List Edit) :
    (ofEdits edits).holdings = Holdings.ofEdits edits := by
  have hfold : ∀ inv : Inventory,
      (edits.foldl edited inv).holdings = edits.foldl Holdings.edited inv.holdings := by
    induction edits with
    | nil => exact fun _ => rfl
    | cons e edits ih =>
      intro inv
      rw [List.foldl_cons, List.foldl_cons, ih, holdings_edited]
  exact hfold empty

end Inventory
end FirewallRollout
