import Mathlib.Data.List.Basic
import Mathlib.Data.String.Basic

/-!
# Texts in pieces

A text split at every occurrence of a character, as the lines of a text are at its line feeds and
its words at its spaces. Splitting undoes the joining of pieces that do not contain the character.
-/
namespace FirewallRollout.Text

/-- The pieces of a text between the occurrences of a character; there is at least one. -/
def pieces (separator : Char) (s : String) : List String :=
  (s.toList.splitOn separator).map String.ofList

section Split
open String

/-- The pieces found from a place on, after those that were found before. -/
theorem splitOnAux_singleton (c : Char) (l m r : List Char) (found : List String) :
    (String.ofList (l ++ m ++ r)).splitOnAux (.singleton c) ⟨utf8Len l⟩
        ⟨utf8Len (l ++ m)⟩ 0 found =
      found.reverse ++ (List.splitOnPPrepend (· == c) r m.reverse).map .ofList := by
  have hone : ∀ d : Char, utf8Len [d] = d.utf8Size := fun d => by simp
  have hextract : ∀ l m r : List Char,
      Pos.Raw.extract (ofList (l ++ m ++ r)) ⟨utf8Len l⟩ ⟨utf8Len (l ++ m)⟩ = .ofList m := by
    intro l m r
    rw [utf8Len_append]
    exact extract_of_valid l m r
  induction r generalizing l m found with
  | nil =>
    have hend : Pos.Raw.atEnd (ofList (l ++ m ++ [])) ⟨utf8Len (l ++ m)⟩ = true :=
      (atEnd_of_valid (l ++ m) []).mpr rfl
    rw [splitOnAux, if_pos hend, hextract]
    simp
  | cons d r ih =>
    have hmore : ¬ Pos.Raw.atEnd (ofList (l ++ m ++ d :: r)) ⟨utf8Len (l ++ m)⟩ = true := by
      rw [atEnd_of_valid]
      exact List.cons_ne_nil d r
    have hget : Pos.Raw.get (ofList (l ++ m ++ d :: r)) ⟨utf8Len (l ++ m)⟩ = d :=
      get_of_valid (l ++ m) (d :: r)
    have hnext : Pos.Raw.next (ofList (l ++ m ++ d :: r)) ⟨utf8Len (l ++ m)⟩ =
        ⟨utf8Len (l ++ m ++ [d])⟩ := by
      rw [next_of_valid, utf8Len_append (l ++ m), hone]
    have hseparatorGet : Pos.Raw.get (String.singleton c) 0 = c := get_of_valid [] [c]
    have hseparatorNext : Pos.Raw.next (String.singleton c) 0 = ⟨utf8Len [c]⟩ :=
      (next_of_valid [] c []).trans (by simp)
    have hseparatorEnd : Pos.Raw.atEnd (String.singleton c) ⟨utf8Len [c]⟩ = true :=
      (atEnd_of_valid [c] []).mpr rfl
    rw [splitOnAux, if_neg hmore, hget, hseparatorGet, hnext, hseparatorNext,
      List.splitOnPPrepend_cons_eq_if]
    by_cases hd : d = c
    · have hback : Pos.Raw.unoffsetBy ⟨utf8Len (l ++ m ++ [d])⟩ ⟨utf8Len [c]⟩ =
          ⟨utf8Len (l ++ m)⟩ := by
        rw [Pos.Raw.unoffsetBy, hd, utf8Len_append (l ++ m), Nat.add_sub_cancel]
      have hrest := ih (l ++ m ++ [d]) [] (.ofList m :: found)
      rw [List.append_nil, List.append_assoc (l ++ m), List.singleton_append] at hrest
      rw [if_pos (by simpa using hd), if_pos hseparatorEnd, if_pos (by simpa using hd), hback,
        hextract, hrest]
      simp
    · have hback : Pos.Raw.unoffsetBy ⟨utf8Len (l ++ m)⟩ 0 = ⟨utf8Len (l ++ m)⟩ := rfl
      have hrest := ih l (m ++ [d]) found
      rw [← List.append_assoc, List.append_assoc (l ++ m), List.singleton_append] at hrest
      rw [if_neg (by simpa using hd), if_neg (by simpa using hd), hback, hnext, hrest]
      simp

/-- Splitting at a text of one character. -/
theorem splitOn_singleton (c : Char) (s : String) : s.splitOn (.singleton c) = pieces c s := by
  have hne : (String.singleton c == "") = false := by simp
  rw [String.splitOn, hne, if_neg (by simp)]
  have h := splitOnAux_singleton c [] [] s.toList []
  rw [pieces, List.splitOn_eq_splitOnP]
  simpa using h

end Split

variable {separator : Char}

/-- A text without the character is one piece. -/
theorem pieces_of_notMem {s : String} (h : separator ∉ s.toList) : pieces separator s = [s] := by
  simp [pieces, List.splitOn_eq_singleton h]

/-- Splitting at one occurrence first. -/
theorem pieces_append_cons (s t : List Char) :
    pieces separator (.ofList (s ++ separator :: t)) =
      pieces separator (.ofList s) ++ pieces separator (.ofList t) := by
  simp [pieces, List.splitOn_eq_splitOnP, List.splitOnP_append_cons]

/-- What comes before the first occurrence belongs to the first piece alone. -/
theorem tail_pieces_append {s : List Char} (h : separator ∉ s) (t : List Char) :
    (pieces separator (.ofList (s ++ t))).tail = (pieces separator (.ofList t)).tail := by
  unfold pieces
  induction s with
  | nil => rfl
  | cons c s ih =>
    obtain ⟨hc, hs⟩ := not_or.mp (mt List.mem_cons.mpr h)
    rw [List.cons_append, String.toList_ofList, List.splitOn_eq_splitOnP,
      List.splitOnP_cons_eq_if_modifyHead, if_neg (by simpa using Ne.symm hc)]
    have hrest := ih hs
    rw [String.toList_ofList, List.splitOn_eq_splitOnP] at hrest
    rw [← hrest]
    cases (s ++ t).splitOnP (· == separator) <;> rfl

/-- The first piece begins as the text does, unless it is empty. -/
theorem head?_pieces_cons {c : Char} (hc : c ≠ separator) (t : List Char) :
    ∃ u, pieces separator (.ofList (c :: t)) =
      .ofList (c :: u) :: (pieces separator (.ofList t)).tail := by
  unfold pieces
  obtain ⟨u, rest, hpieces⟩ := List.exists_cons_of_ne_nil (List.splitOnP_ne_nil (· == separator) t)
  refine ⟨u, ?_⟩
  simp [List.splitOn_eq_splitOnP, List.splitOnP_cons_eq_if_modifyHead, hc, hpieces]

/-- Pieces that do not contain the character are read back from their joined text. -/
theorem pieces_intercalate {parts : List String} (h : ∀ w ∈ parts, separator ∉ w.toList)
    (hne : parts ≠ []) :
    pieces separator ((String.singleton separator).intercalate parts) = parts := by
  have hlists : ((String.singleton separator).intercalate parts).toList =
      [separator].intercalate (parts.map String.toList) := by
    simp [String.toList_intercalate]
  rw [pieces, hlists, List.splitOn_intercalate separator (by simpa using h) (by simpa using hne)]
  simp

/-- A character that stands twice in a row has an empty piece between. -/
theorem empty_mem_pieces {s : String} (h : [separator, separator] <:+: s.toList) :
    "" ∈ pieces separator s := by
  obtain ⟨before, after, htext⟩ := h
  have hsplit : s = .ofList (before ++ separator :: (separator :: after)) := by
    rw [← String.toList_inj, ← htext]
    simp
  rw [hsplit, pieces_append_cons, List.mem_append]
  refine .inr ?_
  rw [show separator :: after = [] ++ separator :: after from rfl, pieces_append_cons]
  simp [pieces]

/-- The lines of a text, each of which was closed by the character, are the lines of its parts. -/
theorem pieces_join_closed (parts : List String) :
    pieces separator (String.join (parts.map (· ++ .singleton separator))) =
      parts.flatMap (pieces separator) ++ [""] := by
  induction parts with
  | nil => simp [pieces]
  | cons part parts ih =>
    have hclosed : String.join ((part :: parts).map (· ++ .singleton separator)) =
        .ofList (part.toList ++
          separator :: (String.join (parts.map (· ++ .singleton separator))).toList) := by
      rw [← String.toList_inj]
      simp
    rw [hclosed, pieces_append_cons, String.ofList_toList, String.ofList_toList, ih,
      List.flatMap_cons, List.append_assoc]

end FirewallRollout.Text
