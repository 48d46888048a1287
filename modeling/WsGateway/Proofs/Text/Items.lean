import WsGateway.Proofs.Text.Pieces

/-!
# Lists in texts

A list of texts is written with commas between its items, and read by cutting the text at its commas
and trimming the pieces. It comes back if each item can stand between commas (`IsItem`), and items
that have been read can.
-/

namespace WsGateway.Text

variable {s : String}

/-! ## Trimmed texts -/

/-- No blank stands at either end. -/
def IsTrimmed (s : String) : Prop :=
  (∀ c, s.toList.head? = some c → isBlank c = false) ∧
    ∀ c, s.toList.getLast? = some c → isBlank c = false

instance (s : String) : Decidable (IsTrimmed s) :=
  decidable_of_iff
    (s.toList.head?.all (fun c => isBlank c = false) = true ∧
      s.toList.getLast?.all (fun c => isBlank c = false) = true)
    (by simp only [IsTrimmed, Option.all_eq_true, decide_eq_true_eq])

/-- There is nothing to trim. -/
theorem IsTrimmed.trim_eq (h : IsTrimmed s) : trim s = s := by
  unfold trim
  by_cases hnil : s.toList = []
  · rw [hnil, String.toList_eq_nil_iff.mp hnil]
    rfl
  · have hchars : trimChars ([] ++ s.toList ++ []) = s.toList :=
      trimChars_append nofun nofun h.1 h.2 hnil
    rw [List.nil_append, List.append_nil] at hchars
    rw [hchars, String.ofList_toList]

theorem head?_trimEnd {cs : List Char} {c : Char} (h : (trimEnd cs).head? = some c) :
    cs.head? = some c := by
  have hprefix : trimEnd cs <+: cs := by
    unfold trimEnd
    have hsuffix := (List.dropWhile_suffix (l := cs.reverse) isBlank)
    rwa [← List.reverse_prefix, List.reverse_reverse] at hsuffix
  obtain ⟨rest, hrest⟩ := hprefix
  rw [← hrest, List.head?_append, h]
  rfl

/-- What is left of trimming is trimmed. -/
theorem isTrimmed_trim (s : String) : IsTrimmed (trim s) := by
  have hstop : ∀ {cs : List Char} {c}, (cs.dropWhile isBlank).head? = some c →
      isBlank c = false := by
    intro cs c h
    have hnot := List.head?_dropWhile_not isBlank cs
    rw [h] at hnot
    exact hnot
  unfold IsTrimmed trim trimChars
  rw [String.toList_ofList]
  refine ⟨fun c hc => hstop (head?_trimEnd hc), fun c hc => ?_⟩
  rw [trimEnd, List.getLast?_reverse] at hc
  exact hstop hc

/-- What is left of the text without the blanks at its ends. -/
def Strips (raw s : String) : Prop := IsTrimmed s ∧ BetweenBlanks s.toList raw.toList

/-- **A text is trimmed to what is left of it** without the blanks at its ends. -/
theorem trim_eq_iff {raw : String} : trim raw = s ↔ Strips raw s := by
  constructor
  · rintro rfl
    refine ⟨isTrimmed_trim raw, ?_⟩
    unfold trim
    rw [String.toList_ofList]
    exact exists_trimChars raw.toList
  · rintro ⟨htrimmed, before, after, hraw, hbefore, hafter⟩
    by_cases hnil : s.toList = []
    · -- nothing is left of a text of blanks
      have hblank : ∀ c ∈ raw.toList, isBlank c = true := by
        intro c hc
        rw [hraw, hnil, List.append_nil] at hc
        exact (List.mem_append.mp hc).elim (hbefore c) (hafter c)
      unfold trim trimChars
      rw [List.dropWhile_eq_nil_iff.mpr hblank, String.toList_eq_nil_iff.mp hnil]
      rfl
    · unfold trim
      rw [hraw, trimChars_append hbefore hafter htrimmed.1 htrimmed.2 hnil, String.ofList_toList]

/-! ## Items between commas -/

/-- Cutting at a separator is the library's `List.splitOn`. -/
theorem splitChars_eq_splitOn (sep : Char) (cs : List Char) :
    splitChars sep cs = cs.splitOn sep := by
  induction cs with
  | nil => rfl
  | cons c rest ih =>
    show _ = List.splitOnP (· == sep) (c :: rest)
    rw [List.splitOnP_cons_eq_if_modifyHead, splitChars, ih]
    by_cases hc : c = sep
    · rw [if_pos hc, if_pos (beq_iff_eq.mpr hc)]
      rfl
    · rw [if_neg hc, if_neg (by simpa using hc)]
      cases hpieces : rest.splitOn sep with
      | nil => exact absurd (ih.trans hpieces) (splitChars_ne_nil sep rest)
      | cons piece pieces =>
        rw [show rest.splitOnP (· == sep) = piece :: pieces from hpieces]
        rfl

/-- The text can stand between commas: it is not empty, trimmed, and has no comma in it. -/
structure IsItem (s : String) : Prop where
  ne_empty : s ≠ ""
  trimmed : IsTrimmed s
  comma : ',' ∉ s.toList

/-- Items are cut apart where they have been joined. -/
theorem split_intercalate {items : List String} (h : ∀ s ∈ items, IsItem s) (hne : items ≠ []) :
    split ',' (String.intercalate "," items) = items := by
  have hjoined : (String.intercalate "," items).toList =
      [','].intercalate (items.map String.toList) := by
    rw [String.toList_intercalate]
    rfl
  unfold split
  rw [splitChars_eq_splitOn, hjoined, List.splitOn_intercalate]
  · rw [List.map_map]
    exact (List.map_congr_left fun s _ => String.ofList_toList).trans (List.map_id items)
  · intro l hl
    obtain ⟨s, hs, rfl⟩ := List.mem_map.mp hl
    exact (h s hs).comma
  · simpa using hne

/-- The texts are what is left of the pieces, in order and without the blank ones. -/
inductive Kept : List (List Char) → List String → Prop where
  | nil : Kept [] []
  | blank {piece : List Char} {pieces : List (List Char)} {items : List String}
    (hblank : ∀ c ∈ piece, isBlank c = true) (h : Kept pieces items) : Kept (piece :: pieces) items
  | item {piece : List Char} {pieces : List (List Char)} {s : String} {items : List String}
    (hne : s ≠ "") (hpiece : Strips (String.ofList piece) s) (h : Kept pieces items) :
    Kept (piece :: pieces) (s :: items)

/-- The texts stand between the commas of the text, with blanks around them. -/
def Lists (s : String) (items : List String) : Prop :=
  ∃ pieces, pieces ≠ [] ∧ (∀ piece ∈ pieces, ',' ∉ piece) ∧ s.toList = [','].intercalate pieces ∧
    Kept pieces items

/-- A text is blank just if nothing is left when it is trimmed. -/
theorem trim_eq_empty_iff : trim s = "" ↔ ∀ c ∈ s.toList, isBlank c = true := by
  rw [trim_eq_iff]
  constructor
  · rintro ⟨-, before, after, hs, hbefore, hafter⟩ c hc
    rw [hs, String.toList_empty, List.append_nil] at hc
    exact (List.mem_append.mp hc).elim (hbefore c) (hafter c)
  · intro hblank
    exact ⟨⟨nofun, nofun⟩, s.toList, [], by simp, hblank, nofun⟩

/-- The items kept from the pieces are the trimmed pieces that are not blank, in order. -/
theorem kept_iff {pieces : List (List Char)} {items : List String} :
    Kept pieces items ↔
      ((pieces.map String.ofList).map trim).filter (!·.isEmpty) = items := by
  induction pieces generalizing items with
  | nil =>
    constructor
    · intro h
      cases h
      rfl
    · rintro rfl
      exact .nil
  | cons piece pieces ih =>
    rw [List.map_cons, List.map_cons]
    -- A piece without a character that is not blank is dropped; any other piece is one item.
    by_cases hempty : trim (String.ofList piece) = ""
    · rw [List.filter_cons_of_neg (by simp [hempty]), ← ih]
      have hblank := trim_eq_empty_iff.mp hempty
      rw [String.toList_ofList] at hblank
      constructor
      · intro h
        cases h with
        | blank _ h => exact h
        | item hne hpiece _ => exact absurd ((trim_eq_iff.mpr hpiece).symm.trans hempty) hne
      · exact .blank hblank
    · rw [List.filter_cons_of_pos (by simpa using hempty)]
      constructor
      · intro h
        cases h with
        | blank hblank _ =>
          exact absurd (trim_eq_empty_iff.mpr (by rwa [String.toList_ofList])) hempty
        | item _ hpiece h => rw [trim_eq_iff.mpr hpiece, ih.mp h]
      · rintro rfl
        exact .item hempty (trim_eq_iff.mp rfl) (ih.mpr rfl)

/-- **What a list says**: the texts between its commas, without blanks around them. -/
theorem lists_iff {items : List String} :
    Lists s items ↔ ((split ',' s).map trim).filter (!·.isEmpty) = items := by
  unfold split
  constructor
  · rintro ⟨pieces, hne, hcomma, hs, hkept⟩
    rw [hs, splitChars_eq_splitOn, List.splitOn_intercalate _ hcomma hne]
    exact kept_iff.mp hkept
  · intro h
    refine ⟨_, splitChars_ne_nil ',' s.toList, fun piece hpiece => (mem_splitChars.mp hpiece).1, ?_,
      kept_iff.mpr h⟩
    rw [splitChars_eq_splitOn, List.intercalate_splitOn]

/-- Joined items begin as the first of them does, and end as the last. -/
theorem isTrimmed_intercalate {items : List String} (h : ∀ s ∈ items, IsItem s) :
    IsTrimmed (String.intercalate "," items) := by
  induction items with
  | nil => exact ⟨nofun, nofun⟩
  | cons s rest ih =>
    obtain ⟨hs, hrest⟩ := List.forall_mem_cons.mp h
    -- The first item is trimmed in front and the last one behind; what is between them does not
    -- matter.
    cases rest with
    | nil => exact hs.trimmed
    | cons t rest =>
      have hjoined : (String.intercalate "," (s :: t :: rest)).toList =
          s.toList ++ ',' :: (String.intercalate "," (t :: rest)).toList := by
        rw [String.intercalate_cons_cons, String.toList_append, String.toList_append,
          List.append_assoc]
        rfl
      obtain ⟨-, hlast⟩ := ih hrest
      unfold IsTrimmed
      rw [hjoined]
      constructor
      · intro c hc
        cases hfirst : s.toList with
        | nil => exact absurd (String.toList_eq_nil_iff.mp hfirst) hs.ne_empty
        | cons d ds =>
          rw [hfirst] at hc
          exact hs.trimmed.1 c (by rwa [hfirst])
      · intro c hc
        rw [List.getLast?_append, List.getLast?_cons] at hc
        cases hc
        cases hend : (String.intercalate "," (t :: rest)).toList.getLast? with
        | none => decide
        | some d => exact hlast d hend

end WsGateway.Text
