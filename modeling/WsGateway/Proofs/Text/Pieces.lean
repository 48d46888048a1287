import Mathlib.Data.List.TakeWhile
import WsGateway.Text.Blank
import WsGateway.Text.Split

/-!
# Pieces of texts

What cutting a text at separators and trimming it come to, said of the text itself: a piece stands
between two separators or ends of the text and holds none (`mem_splitChars`), the first one that is
not empty begins behind the separators at the beginning (`find?_splitChars`), and a trimmed piece is
a word if it is that word between blanks (`trimChars_eq_iff`), in any case if letters are compared
so (`sameLetters_trim`).
-/

namespace WsGateway.Text

/-- The piece stands in the text between separators, or between one and an end of the text. -/
def IsPiece (sep : Char) (cs piece : List Char) : Prop :=
  sep ∉ piece ∧ ∃ before after, cs = before ++ piece ++ after ∧
    (before = [] ∨ ∃ b, before = b ++ [sep]) ∧ (after = [] ∨ ∃ a, after = sep :: a)

variable {sep : Char} {cs piece : List Char}

/-- A text without the separator is one piece. -/
theorem splitChars_of_not_mem (h : sep ∉ cs) : splitChars sep cs = [cs] := by
  induction cs with
  | nil => rfl
  | cons c rest ih =>
    rw [List.mem_cons, not_or] at h
    rw [splitChars, if_neg (Ne.symm h.1), ih h.2]

/-- Pieces before a separator and behind it are cut apart. -/
theorem splitChars_append_sep (sep : Char) (front rest : List Char) :
    splitChars sep (front ++ sep :: rest) = splitChars sep front ++ splitChars sep rest := by
  induction front with
  | nil =>
    show splitChars sep (sep :: rest) = [[]] ++ _
    rw [splitChars, if_pos rfl]
    rfl
  | cons c front ih =>
    rw [List.cons_append, splitChars, splitChars, ih]
    split
    · rfl
    · cases hfront : splitChars sep front with
      | nil => exact absurd hfront (splitChars_ne_nil sep front)
      | cons p ps => rfl

/-- **The pieces of a text**, by induction on its length: either it has no separator and is the only
piece, or what stands before the first separator is a piece and the others are behind it. -/
theorem mem_splitChars : piece ∈ splitChars sep cs ↔ IsPiece sep cs piece := by
  constructor
  · intro h
    -- Induction on the length, since the recursion goes on behind the first separator.
    induction hn : cs.length using Nat.strong_induction_on generalizing cs with
    | _ n ih =>
      by_cases hmem : sep ∈ cs
      · obtain ⟨front, rest, rfl, hfront⟩ := List.eq_append_cons_of_mem hmem
        rw [splitChars_append_sep, splitChars_of_not_mem hfront, List.mem_append,
          List.mem_singleton] at h
        rcases h with rfl | hrest
        · exact ⟨hfront, [], sep :: rest, rfl, .inl rfl, .inr ⟨rest, rfl⟩⟩
        · have hlt : rest.length < n := by
            rw [← hn, List.length_append, List.length_cons]
            omega
          obtain ⟨hsep, before, after, rfl, hbefore, hafter⟩ := ih _ hlt hrest rfl
          refine ⟨hsep, front ++ sep :: before, after, by simp, .inr ?_, hafter⟩
          rcases hbefore with rfl | ⟨b, rfl⟩
          · exact ⟨front, rfl⟩
          · exact ⟨front ++ sep :: b, by simp⟩
      · rw [splitChars_of_not_mem hmem, List.mem_singleton] at h
        subst h
        exact ⟨hmem, [], [], by simp, .inl rfl, .inl rfl⟩
  · rintro ⟨hsep, before, after, rfl, hbefore, hafter⟩
    -- A piece at the front is found at once; one behind a separator is the same with a text before
    -- it.
    have hfirst : piece ∈ splitChars sep (piece ++ after) := by
      rcases hafter with rfl | ⟨a, rfl⟩
      · rw [List.append_nil, splitChars_of_not_mem hsep]
        exact List.mem_singleton_self piece
      · rw [splitChars_append_sep, splitChars_of_not_mem hsep]
        exact List.mem_append_left _ (List.mem_singleton_self piece)
    rcases hbefore with rfl | ⟨b, rfl⟩
    · exact hfirst
    · rw [List.append_assoc, List.append_assoc, List.singleton_append, splitChars_append_sep]
      exact List.mem_append_right _ hfirst

/-! ## The first piece -/

/-- The first piece is what stands before the first separator. -/
theorem splitChars_eq_cons (sep : Char) (cs : List Char) :
    ∃ pieces, splitChars sep cs = cs.takeWhile (· ≠ sep) :: pieces := by
  induction cs with
  | nil => exact ⟨[], rfl⟩
  | cons c rest ih =>
    obtain ⟨pieces, hpieces⟩ := ih
    rw [splitChars]
    split
    · next heq => exact ⟨_, by rw [List.takeWhile_cons_of_neg (by simp [heq])]⟩
    · next hne =>
      rw [hpieces]
      exact ⟨pieces, by rw [List.takeWhile_cons_of_pos (by simpa using hne)]⟩

/-- The first piece that is not empty begins behind the separators at the beginning, if anything
does. -/
theorem find?_splitChars (sep : Char) (cs : List Char) :
    (splitChars sep cs).find? (!·.isEmpty) =
      match cs.dropWhile (· = sep) with
      | [] => none
      | c :: rest => some ((c :: rest).takeWhile (· ≠ sep)) := by
  induction cs with
  | nil => rfl
  | cons c rest ih =>
    by_cases hc : c = sep
    · rw [splitChars, if_pos hc, List.dropWhile_cons_of_pos (by simpa using hc),
        List.find?_cons_of_neg (by simp)]
      exact ih
    · obtain ⟨pieces, hpieces⟩ := splitChars_eq_cons sep (c :: rest)
      rw [hpieces, List.dropWhile_cons_of_neg (by simpa using hc), List.find?_cons_of_pos]
      rw [List.takeWhile_cons_of_pos (by simpa using hc)]
      rfl

/-! ## Words between blanks -/

/-- The text is the word in any case, between any blanks. -/
def Spells (word cs : List Char) : Prop :=
  ∃ before w after, cs = before ++ w ++ after ∧ (∀ c ∈ before, isBlank c = true) ∧
    (∀ c ∈ after, isBlank c = true) ∧ w.map Char.toLower = word

/-- Blanks at the end are trimmed, and nothing else. -/
theorem trimEnd_append {w after : List Char} (hafter : ∀ c ∈ after, isBlank c = true)
    (hw : ∀ c, w.getLast? = some c → isBlank c = false) : trimEnd (w ++ after) = w := by
  unfold trimEnd
  rw [List.reverse_append, List.dropWhile_append_of_pos (by simpa using hafter)]
  cases hrev : w.reverse with
  | nil => exact (List.reverse_eq_nil_iff.mp hrev).symm
  | cons c rest =>
    have hlast : w.getLast? = some c := by rw [← List.head?_reverse, hrev, List.head?_cons]
    rw [List.dropWhile_cons_of_neg (by simp [hw c hlast]), ← hrev, List.reverse_reverse]

/-- Blanks at the ends are what trimming removes. -/
theorem trimChars_append {before w after : List Char} (hbefore : ∀ c ∈ before, isBlank c = true)
    (hafter : ∀ c ∈ after, isBlank c = true)
    (hhead : ∀ c, w.head? = some c → isBlank c = false)
    (hlast : ∀ c, w.getLast? = some c → isBlank c = false) (hne : w ≠ []) :
    trimChars (before ++ w ++ after) = w := by
  unfold trimChars
  rw [List.append_assoc, List.dropWhile_append_of_pos hbefore]
  cases w with
  | nil => exact absurd rfl hne
  | cons c rest =>
    rw [List.cons_append, List.dropWhile_cons_of_neg (by simp [hhead c rfl])]
    exact trimEnd_append hafter hlast

/-- What is trimmed is blank. -/
theorem exists_trimChars (cs : List Char) : ∃ before after,
    cs = before ++ trimChars cs ++ after ∧ (∀ c ∈ before, isBlank c = true) ∧
      ∀ c ∈ after, isBlank c = true := by
  have hend : ∀ w : List Char,
      trimEnd w ++ (w.reverse.takeWhile isBlank).reverse = w := by
    intro w
    unfold trimEnd
    rw [← List.reverse_append, List.takeWhile_append_dropWhile, List.reverse_reverse]
  refine ⟨cs.takeWhile isBlank, ((cs.dropWhile isBlank).reverse.takeWhile isBlank).reverse, ?_,
    fun c hc => List.mem_takeWhile_imp hc,
    fun c hc => List.mem_takeWhile_imp (List.mem_reverse.mp hc)⟩
  unfold trimChars
  rw [List.append_assoc, hend, List.takeWhile_append_dropWhile]

/-- The text is the word between any blanks. -/
def BetweenBlanks (word cs : List Char) : Prop :=
  ∃ before after, cs = before ++ word ++ after ∧ (∀ c ∈ before, isBlank c = true) ∧
    ∀ c ∈ after, isBlank c = true

/-- **A trimmed text is a word** without blanks if it is that word between blanks. -/
theorem trimChars_eq_iff {word cs : List Char} (hne : word ≠ [])
    (hblank : ∀ c ∈ word, isBlank c = false) : trimChars cs = word ↔ BetweenBlanks word cs := by
  constructor
  · rintro rfl
    exact exists_trimChars cs
  · rintro ⟨before, after, rfl, hbefore, hafter⟩
    exact trimChars_append hbefore hafter (fun c hc => hblank c (List.mem_of_head? hc))
      (fun c hc => hblank c (List.mem_of_getLast? hc)) hne

theorem isBlank_toLower {c : Char} (h : isBlank c = true) : isBlank c.toLower = true := by
  have hnot : ¬ (65 ≤ c.toNat ∧ c.toNat ≤ 90) := by
    intro hupper
    simp only [isBlank, Bool.or_eq_true, Bool.and_eq_true, decide_eq_true_eq, beq_iff_eq] at h
    omega
  have hsame : c.toLower = c := by
    unfold Char.toLower
    split
    · next hupper => exact absurd hupper hnot
    · rfl
  rw [hsame]
  exact h

/-- **A trimmed piece is a word in any case** if it is that between blanks. The word is in lower
case and has no blanks at its ends. -/
theorem sameLetters_trim {word : String} {s : String} (hne : word.toList ≠ [])
    (hlower : word.toList.map Char.toLower = word.toList)
    (hblank : ∀ c ∈ word.toList, isBlank c = false) :
    sameLetters (trim s) word = true ↔ Spells word.toList s.toList := by
  unfold sameLetters trim
  rw [beq_iff_eq, hlower, String.toList_ofList]
  constructor
  · intro h
    obtain ⟨before, after, hs, hbefore, hafter⟩ := exists_trimChars s.toList
    exact ⟨before, _, after, hs, hbefore, hafter, h⟩
  · rintro ⟨before, w, after, hs, hbefore, hafter, hw⟩
    -- no letter of the word is a blank in either case
    have hletters : ∀ c ∈ w, isBlank c = false := by
      intro c hc
      have hmem : c.toLower ∈ word.toList := hw ▸ List.mem_map_of_mem hc
      exact Bool.eq_false_iff.mpr fun hb =>
        Bool.eq_false_iff.mp (hblank _ hmem) (isBlank_toLower hb)
    have hsome : w ≠ [] := by
      rintro rfl
      exact hne hw.symm
    rw [hs, trimChars_append hbefore hafter (fun c hc => hletters c (List.mem_of_head? hc))
      (fun c hc => hletters c (List.mem_of_getLast? hc)) hsome, hw]

end WsGateway.Text
