import FirewallRollout.Json.Reader
import FirewallRollout.Proofs.Json.Tokens

/-!
# What was written is read again

The tokens of a datum put that datum where a value is awaited, whatever is still open around it. So
the document of a datum that a record can tell from others denotes that datum.
-/
namespace FirewallRollout

/-- A datum without a part that no field accepts. -/
inductive Datum.Readable : Datum → Prop
  | null : Readable .null
  | bool (b : Bool) : Readable (.bool b)
  | integer (n : Int) : Readable (.integer n)
  | text (s : String) : Readable (.text s)
  | list {items : List Datum} (h : ∀ d ∈ items, Readable d) : Readable (.list items)
  | record {entries : List (String × Datum)} (h : ∀ e ∈ entries, Readable e.2) :
    Readable (.record entries)

namespace Json

/-- Whether a value may come next. -/
def Awaiting.OfValue (a : Awaiting) : Prop := a = .value ∨ a = .firstItem

/-- Whether a key may come next. -/
def Awaiting.OfKey (a : Awaiting) : Prop := a = .key ∨ a = .firstKey

/-- Tokens put a datum where a value is awaited. -/
def Puts (tokens : List Token) (d : Datum) : Prop :=
  ∀ r : Reading, r.awaiting.OfValue → tokens.foldlM Reading.step r = r.put d

/-- Where a value goes does not depend on what was awaited. -/
theorem put_awaiting (frames : List Frame) (a b : Awaiting) (whole : Option Datum) (d : Datum) :
    Reading.put ⟨frames, a, whole⟩ d = Reading.put ⟨frames, b, whole⟩ d := by
  rcases frames with _ | ⟨_ | _ | _, frames⟩ <;> rfl

theorem step_of_value {r : Reading} (h : r.awaiting.OfValue) {t : Token} (ht : t ≠ .closeList) :
    r.step t = r.value t := by
  rcases h with h | h <;> simp [Reading.step, h, ht]

theorem puts_token {t : Token} {d : Datum} (ht : t ≠ .closeList)
    (hvalue : ∀ r : Reading, r.value t = r.put d) : Puts [t] d := by
  intro r hr
  rw [List.foldlM_cons, step_of_value hr ht, hvalue]
  cases r.put d <;> rfl

/-- Items go behind those that are done. -/
theorem foldlM_items {items : List Datum} (hne : items ≠ [])
    (h : ∀ d ∈ items, Puts (tokensOf d) d) (done : List Datum) (frames : List Frame)
    {awaiting : Awaiting} (hawaiting : awaiting.OfValue) (whole : Option Datum) :
    (tokensOfItems items).foldlM Reading.step ⟨.items done :: frames, awaiting, whole⟩ =
      some ⟨.items (items.reverse ++ done) :: frames, .next, whole⟩ := by
  induction items generalizing done awaiting with
  | nil => exact absurd rfl hne
  | cons d items ih =>
    obtain ⟨hd, hitems⟩ := List.forall_mem_cons.mp h
    have hfirst := hd ⟨.items done :: frames, awaiting, whole⟩ hawaiting
    cases items with
    | nil => simpa [tokensOfItems, Reading.put] using hfirst
    | cons e items =>
      rw [tokensOfItems_cons_cons, List.foldlM_append, hfirst, List.reverse_cons, List.append_assoc]
      exact ih (List.cons_ne_nil e items) hitems (d :: done) (.inl rfl)

/-- Entries go behind those that are done. -/
theorem foldlM_entries {entries : List (String × Datum)} (hne : entries ≠ [])
    (h : ∀ e ∈ entries, Puts (tokensOf e.2) e.2) (done : List (Option String × Datum))
    (frames : List Frame) {awaiting : Awaiting} (hawaiting : awaiting.OfKey)
    (whole : Option Datum) :
    (tokensOfEntries entries).foldlM Reading.step ⟨.entries done :: frames, awaiting, whole⟩ =
      some ⟨.entries ((entries.map fun e => (some e.1, e.2)).reverse ++ done) :: frames, .next,
        whole⟩ := by
  induction entries generalizing done awaiting with
  | nil => exact absurd rfl hne
  | cons e entries ih =>
    obtain ⟨key, d⟩ := e
    obtain ⟨hd, hentries⟩ := List.forall_mem_cons.mp h
    have hkey : Reading.step ⟨.entries done :: frames, awaiting, whole⟩ (.text (some key)) =
        some ⟨.entry done (some key) :: frames, .colon, whole⟩ := by
      rcases hawaiting with rfl | rfl <;> rfl
    have hfirst : (.text (some key) :: .colon :: tokensOf d).foldlM Reading.step
        ⟨.entries done :: frames, awaiting, whole⟩ =
          some ⟨.entries ((some key, d) :: done) :: frames, .next, whole⟩ := by
      rw [List.foldlM_cons, hkey]
      exact hd ⟨.entry done (some key) :: frames, .value, whole⟩ (.inl rfl)
    cases entries with
    | nil => simpa [tokensOfEntries] using hfirst
    | cons e entries =>
      rw [tokensOfEntries_cons_cons, List.foldlM_append, hfirst, List.map_cons, List.reverse_cons,
        List.append_assoc]
      exact ih (List.cons_ne_nil e entries) hentries ((some key, d) :: done) (.inl rfl)

/-- A record with texts for keys is that record. -/
theorem recordOf_texts (entries : List (String × Datum)) :
    recordOf (entries.map fun e => (some e.1, e.2)).reverse = .record entries := by
  have hentries : ((entries.map fun e => ((some e.1 : Option String), e.2)).mapM fun entry =>
      entry.1.map fun key => (key, entry.2)) = some entries := by
    induction entries with
    | nil => rfl
    | cons e entries ih => rw [List.map_cons, List.mapM_cons, ih]; rfl
  rw [recordOf, List.reverse_reverse, hentries]

/-- A list puts itself when its items do. -/
theorem puts_list {items : List Datum} (h : ∀ d ∈ items, Puts (tokensOf d) d) :
    Puts (tokensOf (.list items)) (.list items) := by
  intro r hr
  have hopen : r.step .openList = some ⟨.items [] :: r.frames, .firstItem, r.whole⟩ :=
    step_of_value hr (by simp)
  rw [tokensOf, List.cons_append, List.foldlM_cons, hopen]
  refine (List.foldlM_append ..).trans ?_
  by_cases hne : items = []
  · subst hne
    exact (bind_pure _).trans (put_awaiting ..)
  · rw [foldlM_items hne h [] r.frames (.inr rfl)]
    refine (bind_pure _).trans ((put_awaiting _ _ r.awaiting _ _).trans ?_)
    rw [List.append_nil, List.reverse_reverse]

/-- A record puts itself when its values do. -/
theorem puts_record {entries : List (String × Datum)} (h : ∀ e ∈ entries, Puts (tokensOf e.2) e.2) :
    Puts (tokensOf (.record entries)) (.record entries) := by
  intro r hr
  have hopen : r.step .openRecord = some ⟨.entries [] :: r.frames, .firstKey, r.whole⟩ :=
    step_of_value hr (by simp)
  rw [tokensOf, List.cons_append, List.foldlM_cons, hopen]
  refine (List.foldlM_append ..).trans ?_
  by_cases hne : entries = []
  · subst hne
    exact (bind_pure _).trans (put_awaiting ..)
  · rw [foldlM_entries hne h [] r.frames (.inr rfl)]
    refine (bind_pure _).trans ((put_awaiting _ _ r.awaiting _ _).trans ?_)
    rw [List.append_nil, recordOf_texts]

/-- The tokens of a datum put it where a value is awaited. -/
theorem puts_tokensOf {d : Datum} (h : d.Readable) : Puts (tokensOf d) d := by
  induction h with
  | null | bool | integer | text => exact puts_token (by simp) fun _ => rfl
  | list _ ih => exact puts_list ih
  | record _ ih => exact puts_record ih

/-- The document of a datum denotes it. -/
theorem parse?_write {d : Datum} (h : d.Readable) : parse? (write d) = some d := by
  rw [parse?, ofOctets?, tokens?_write, Option.bind_some, ofTokens?,
    puts_tokensOf h Reading.start (.inl rfl)]
  rfl

end Json
end FirewallRollout
