import Mathlib.Data.List.TakeWhile
import WsGateway.Metrics.Exposition
import WsGateway.Proofs.Text.Decimal
import WsGateway.Proofs.Text.Pieces

/-!
# Reading the lines of series

A scraper reads a line of a series from its beginning: the name, then between braces one label after
another, then the value. Values of labels may hold any characters, those of the format itself
included. They are written with escapes, and a reader that undoes the escapes finds the quote behind
each value (`Labels.readValue_escaped`); so it finds the end of each label and of all of them, and
gets back the name, the labels and the value for which the line was written
(`Exposition.Point.read?_line`). No line holds a line feed, so that a text is cut into the lines of
which it was made (`Text.split_ended`).
-/

namespace WsGateway

/-! ## Lines of a text -/

namespace Text

/-- A text of ended lines is cut into these lines and what stands behind the last of them, which is
nothing. -/
theorem split_ended {lines : List String} (h : ∀ line ∈ lines, '\n' ∉ line.toList) :
    split '\n' (String.join (lines.map (· ++ "\n"))) = lines ++ [""] := by
  induction lines with
  | nil => rfl
  | cons line rest ih =>
    obtain ⟨hline, hrest⟩ := List.forall_mem_cons.mp h
    have hcut : split '\n' (String.join ((line :: rest).map (· ++ "\n"))) =
        line :: split '\n' (String.join (rest.map (· ++ "\n"))) := by
      have hchars : (String.join ((line :: rest).map (· ++ "\n"))).toList =
          line.toList ++ '\n' :: (String.join (rest.map (· ++ "\n"))).toList := by
        rw [String.toList_join, List.map_cons, List.flatMap_cons, String.toList_append,
          ← String.toList_join, List.append_assoc]
        rfl
      rw [split, hchars, splitChars_append_sep, splitChars_of_not_mem hline, List.map_append,
        List.map_singleton, String.ofList_toList]
      rfl
    rw [hcut, ih hrest, List.cons_append]

end Text

/-! ## Labels -/

namespace Labels

/-- What a character of a value is written as. -/
def escapedChar (c : Char) : List Char :=
  if c = '\\' then ['\\', '\\']
  else if c = '"' then ['\\', '"']
  else if c = '\n' then ['\\', 'n']
  else [c]

/-- Replacing one character after another in the whole value comes to the same as writing each of
its characters on its own: backslashes go first, so that none which an escape brings in is escaped
again. -/
theorem toList_escaped (value : String) :
    (escaped value).toList = value.toList.flatMap escapedChar := by
  simp only [escaped, replaced, String.toList_ofList, List.flatMap_assoc]
  refine congrArg (List.flatMap · value.toList) (funext fun c => ?_)
  unfold escapedChar
  by_cases hslash : c = '\\'
  · rw [if_pos hslash, if_pos hslash]
    rfl
  rw [if_neg hslash, if_neg hslash, List.flatMap_singleton]
  by_cases hquote : c = '"'
  · rw [if_pos hquote, if_pos hquote]
    rfl
  rw [if_neg hquote, if_neg hquote, List.flatMap_singleton]

/-- An escaped value stands on one line. -/
theorem newline_notMem_escaped (value : String) : '\n' ∉ (escaped value).toList := by
  rw [toList_escaped, List.mem_flatMap]
  rintro ⟨c, -, hc⟩
  unfold escapedChar at hc
  split at hc
  · exact absurd hc (by decide)
  split at hc
  · exact absurd hc (by decide)
  split at hc
  · exact absurd hc (by decide)
  · next hne => exact hne (List.mem_singleton.mp hc).symm

/-- The characters of a value up to the quote behind it, with escapes undone, and what stands behind
the quote. -/
def readValue : List Char → Option (List Char × List Char)
  | [] => none
  | '"' :: rest => some ([], rest)
  | '\\' :: c :: rest =>
    (readValue rest).map fun (value, behind) => ((if c = 'n' then '\n' else c) :: value, behind)
  | c :: rest => (readValue rest).map fun (value, behind) => (c :: value, behind)

/-- **Escapes are undone**, whatever the value is and whatever stands behind its quote. -/
theorem readValue_escaped (value rest : List Char) :
    readValue (value.flatMap escapedChar ++ '"' :: rest) = some (value, rest) := by
  induction value with
  | nil => rfl
  | cons c value ih =>
    rw [List.flatMap_cons, List.append_assoc]
    -- Three characters are escaped; every other one is itself, and the reader takes it as such.
    by_cases hslash : c = '\\'
    · subst hslash
      show readValue ('\\' :: '\\' :: (value.flatMap escapedChar ++ '"' :: rest)) = _
      rw [readValue, ih]
      rfl
    by_cases hquote : c = '"'
    · subst hquote
      show readValue ('\\' :: '"' :: (value.flatMap escapedChar ++ '"' :: rest)) = _
      rw [readValue, ih]
      rfl
    by_cases hfeed : c = '\n'
    · subst hfeed
      show readValue ('\\' :: 'n' :: (value.flatMap escapedChar ++ '"' :: rest)) = _
      rw [readValue, ih]
      rfl
    have hself : escapedChar c = [c] := by
      rw [escapedChar, if_neg hslash, if_neg hquote, if_neg hfeed]
    rw [hself, List.singleton_append, readValue, ih]
    · rfl
    · exact hquote
    · exact fun _ _ h => absurd h hslash

/-- A reader of a value makes progress. -/
theorem length_lt_of_readValue {cs value rest : List Char}
    (h : readValue cs = some (value, rest)) : rest.length < cs.length := by
  induction cs using readValue.induct generalizing value rest with
  | case1 => cases h
  | case2 behind =>
    cases h
    exact Nat.lt_succ_self _
  | case3 c behind ih =>
    rw [readValue, Option.map_eq_some_iff] at h
    obtain ⟨⟨value', rest'⟩, hread, heq⟩ := h
    cases heq
    exact Nat.lt_of_lt_of_le (ih hread) (Nat.le_add_right _ 2)
  | case4 c behind hquote hslash ih =>
    rw [readValue, Option.map_eq_some_iff] at h
    · obtain ⟨⟨value', rest'⟩, hread, heq⟩ := h
      cases heq
      exact Nat.lt_succ_of_lt (ih hread)
    · exact hquote
    · exact hslash

/-- A label at the beginning of a text, and what stands behind it. -/
def readLabel (cs : List Char) : Option ((String × String) × List Char) :=
  match cs.dropWhile (· ≠ '=') with
  | '=' :: '"' :: behind => (readValue behind).map fun (value, rest) =>
    ((String.ofList (cs.takeWhile (· ≠ '=')), String.ofList value), rest)
  | _ => none

/-- A reader of a label makes progress, so that the labels are read by recursion on the length. -/
theorem length_lt_of_readLabel {cs rest : List Char} {label : String × String}
    (h : readLabel cs = some (label, rest)) : rest.length < cs.length := by
  unfold readLabel at h
  split at h
  · next behind hbehind =>
    rw [Option.map_eq_some_iff] at h
    obtain ⟨⟨value, rest'⟩, hread, heq⟩ := h
    cases heq
    have hname : (cs.dropWhile (· ≠ '=')).length ≤ cs.length := List.length_dropWhile_le ..
    have hvalue := length_lt_of_readValue hread
    rw [hbehind, List.length_cons, List.length_cons] at hname
    omega
  · cases h

/-- Labels with commas between them up to the brace behind them, and what stands behind that. -/
def readLabels (cs : List Char) : Option (Labels × List Char) :=
  match _h : readLabel cs with
  | some (label, ',' :: rest) =>
    (readLabels rest).map fun (labels, behind) => (label :: labels, behind)
  | some (label, '\x7d' :: rest) => some ([label], rest)
  | _ => none
termination_by cs.length
decreasing_by exact Nat.lt_of_succ_lt (length_lt_of_readLabel _h)

theorem readLabels_comma {cs rest : List Char} {label : String × String}
    (h : readLabel cs = some (label, ',' :: rest)) :
    readLabels cs = (readLabels rest).map fun (labels, behind) => (label :: labels, behind) := by
  rw [readLabels]
  split
  · next heq =>
    cases h.symm.trans heq
    rfl
  · next heq => cases h.symm.trans heq
  · next hno _ => exact absurd h (hno label rest)

theorem readLabels_brace {cs rest : List Char} {label : String × String}
    (h : readLabel cs = some (label, '\x7d' :: rest)) : readLabels cs = some ([label], rest) := by
  rw [readLabels]
  split
  · next heq => cases h.symm.trans heq
  · next heq =>
    cases h.symm.trans heq
    rfl
  · next _ hno => exact absurd h (hno label rest)

/-- A printed label is read back, whatever stands behind it. -/
theorem readLabel_labelText {label : String × String} (hname : '=' ∉ label.1.toList)
    (rest : List Char) : readLabel ((labelText label).toList ++ rest) = some (label, rest) := by
  have hchars : (labelText label).toList ++ rest =
      label.1.toList ++ '=' :: '"' :: (label.2.toList.flatMap escapedChar ++ '"' :: rest) := by
    simp only [labelText, String.toList_append, toList_escaped, List.append_assoc]
    rfl
  have hbefore : ∀ c ∈ label.1.toList, decide (c ≠ '=') = true :=
    fun c hc => decide_eq_true fun heq => hname (heq ▸ hc)
  rw [readLabel, hchars, List.dropWhile_append_of_pos hbefore,
    List.dropWhile_cons_of_neg (by decide), List.takeWhile_append_of_pos hbefore,
    List.takeWhile_cons_of_neg (by decide), List.append_nil]
  show (readValue _).map _ = _
  rw [readValue_escaped, Option.map_some]
  simp only [String.ofList_toList]

theorem text_cons_cons (label next : String × String) (rest : Labels) :
    text (label :: next :: rest) = labelText label ++ "," ++ text (next :: rest) :=
  String.intercalate_cons_cons

/-- **Labels are read back** from between the braces. By induction on the labels; behind each of
them stands a comma, or the brace if it is the last. -/
theorem readLabels_text {labels : Labels} (hne : labels ≠ [])
    (hnames : ∀ label ∈ labels, '=' ∉ label.1.toList) (rest : List Char) :
    readLabels (labels.text.toList ++ '\x7d' :: rest) = some (labels, rest) := by
  induction labels with
  | nil => exact absurd rfl hne
  | cons label labels ih =>
    obtain ⟨hlabel, hlabels⟩ := List.forall_mem_cons.mp hnames
    cases labels with
    | nil => exact readLabels_brace (readLabel_labelText hlabel _)
    | cons next labels =>
      have hfirst : readLabel ((text (label :: next :: labels)).toList ++ '\x7d' :: rest) =
          some (label, ',' :: ((text (next :: labels)).toList ++ '\x7d' :: rest)) := by
        rw [text_cons_cons, String.toList_append, String.toList_append, List.append_assoc,
          List.append_assoc]
        exact readLabel_labelText hlabel _
      rw [readLabels_comma hfirst, ih (List.cons_ne_nil next labels) hlabels]
      rfl

/-- Printed labels stand on one line. -/
theorem newline_notMem_text {labels : Labels} (hnames : ∀ label ∈ labels, '\n' ∉ label.1.toList) :
    '\n' ∉ labels.text.toList := by
  induction labels with
  | nil => exact List.not_mem_nil
  | cons label labels ih =>
    obtain ⟨hlabel, hlabels⟩ := List.forall_mem_cons.mp hnames
    have hfirst : '\n' ∉ (labelText label).toList := by
      simp [labelText, hlabel, newline_notMem_escaped]
    cases labels with
    | nil => exact hfirst
    | cons next labels =>
      rw [text_cons_cons, String.toList_append, String.toList_append, List.mem_append,
        List.mem_append, not_or, not_or]
      exact ⟨⟨hfirst, by decide⟩, ih hlabels⟩

end Labels

/-! ## Lines -/

namespace Exposition

/-- The text can stand as a name in a line: it has no character that ends a name there, begins a
comment or ends the line. -/
def IsName (s : String) : Prop := ∀ c ∈ s.toList, c ∉ ['#', '=', '\x7b', ' ', '\n']

-- by going through the characters of the text, not through all characters that there are
instance (s : String) : Decidable (IsName s) := List.decidableBAll _ s.toList

/-- Identifiers can stand as names. -/
theorem isName_of_identifier {s : String}
    (h : s.toList.all (fun c => c.isAlphanum || c == '_') = true) : IsName s := by
  intro c hc hmem
  have hchar := List.all_eq_true.mp h c hc
  simp only [List.mem_cons, List.not_mem_nil, or_false] at hmem
  rcases hmem with rfl | rfl | rfl | rfl | rfl <;> exact absurd hchar (by decide)

/-- A name has none of the characters that a reader stops at. -/
theorem IsName.notMem {s : String} (h : IsName s) {c : Char}
    (hc : c ∈ ['#', '=', '\x7b', ' ', '\n']) : c ∉ s.toList :=
  fun hmem => h c hmem hc

theorem IsName.append {s t : String} (hs : IsName s) (ht : IsName t) : IsName (s ++ t) := by
  intro c hc
  rw [String.toList_append, List.mem_append] at hc
  rcases hc with hleft | hright
  · exact hs c hleft
  · exact ht c hright

/-- What a line of a series says. -/
structure Point where
  name : String
  labels : Labels
  value : Int
  deriving DecidableEq

namespace Point

def line (p : Point) : String := seriesLine p.name p.labels (toString p.value)

def endsName (c : Char) : Bool := c = '\x7b' || c = ' '

/-- What a line says that begins with a name, by what stands behind the name: labels between braces
and a value, or the value alone. -/
def readBehind (name : String) : List Char → Option Point
  | '\x7b' :: rest =>
    match Labels.readLabels rest with
    | some (labels, ' ' :: value) => (String.ofList value).toInt?.map fun n => ⟨name, labels, n⟩
    | _ => none
  | ' ' :: value => (String.ofList value).toInt?.map fun n => ⟨name, [], n⟩
  | _ => none

/-- What a line says, if it is the line of a series and not a comment. -/
def read? (line : String) : Option Point :=
  if line.toList.head? = some '#' then none
  else readBehind (String.ofList (line.toList.takeWhile (!endsName ·)))
    (line.toList.dropWhile (!endsName ·))

/-- The name of the series and the names of the labels can stand as names. -/
structure WellNamed (p : Point) : Prop where
  name : IsName p.name
  labels : ∀ label ∈ p.labels, IsName label.1

/-- A point without labels prints no braces. -/
theorem toList_line_of_nil (name : String) (value : Int) :
    (line ⟨name, [], value⟩).toList = name.toList ++ ' ' :: (toString value).toList := by
  show (name ++ " " ++ toString value).toList = _
  rw [String.toList_append, String.toList_append, List.append_assoc]
  rfl

theorem toList_line_of_labels (name : String) {labels : Labels} (hne : labels ≠ [])
    (value : Int) : (line ⟨name, labels, value⟩).toList = name.toList ++
      '\x7b' :: (labels.text.toList ++ '\x7d' :: ' ' :: (toString value).toList) := by
  rw [line, seriesLine, if_neg (by rwa [List.isEmpty_iff])]
  simp only [String.toList_append, List.append_assoc]
  rfl

/-- The name of a line is found, and reading goes on behind it. -/
theorem read?_of_name {text name : String} {c : Char} {rest : List Char} (hname : IsName name)
    (hend : endsName c = true) (htext : text.toList = name.toList ++ c :: rest) :
    read? text = readBehind name (c :: rest) := by
  have hbefore : ∀ d ∈ name.toList, (!endsName d) = true := by
    intro d hd
    have hbrace : d ≠ '\x7b' := fun heq => hname.notMem (by decide) (heq ▸ hd)
    have hblank : d ≠ ' ' := fun heq => hname.notMem (by decide) (heq ▸ hd)
    simp [endsName, hbrace, hblank]
  -- A name does not begin with the mark of a comment, and an empty one is followed by a blank or a
  -- brace.
  have hcomment : text.toList.head? ≠ some '#' := by
    rw [htext]
    cases hchars : name.toList with
    | nil =>
      rintro h
      cases h
      exact absurd hend (by decide)
    | cons d ds =>
      rintro h
      cases h
      exact hname.notMem (by decide) (hchars ▸ List.mem_cons_self)
  rw [read?, if_neg hcomment, htext, List.takeWhile_append_of_pos hbefore,
    List.dropWhile_append_of_pos hbefore, List.takeWhile_cons_of_neg (by simp [hend]),
    List.dropWhile_cons_of_neg (by simp [hend]), List.append_nil, String.ofList_toList]

theorem toInt?_ofList_intText (n : Int) : (String.ofList (toString n).toList).toInt? = some n := by
  rw [String.ofList_toList, Int.toString_eq_repr, Int.toInt?_repr]

/-- **A line is read back**, whatever values its labels have. -/
theorem read?_line {p : Point} (h : p.WellNamed) : read? p.line = some p := by
  obtain ⟨name, labels, value⟩ := p
  by_cases hne : labels = []
  · subst hne
    rw [read?_of_name h.name (by decide) (toList_line_of_nil name value), readBehind,
      toInt?_ofList_intText]
    rfl
  · have hequals : ∀ label ∈ labels, '=' ∉ label.1.toList :=
      fun label hlabel => (h.labels label hlabel).notMem (by decide)
    rw [read?_of_name h.name (by decide) (toList_line_of_labels name hne value), readBehind,
      Labels.readLabels_text hne hequals]
    show (String.ofList (toString value).toList).toInt?.map _ = _
    rw [toInt?_ofList_intText]
    rfl

/-- A point prints one line. -/
theorem newline_notMem_line {p : Point} (h : p.WellNamed) : '\n' ∉ p.line.toList := by
  obtain ⟨name, labels, value⟩ := p
  have hname : '\n' ∉ name.toList := h.name.notMem (by decide)
  have hvalue : '\n' ∉ value.repr.toList := Text.notMem_intText value rfl (by decide)
  by_cases hne : labels = []
  · subst hne
    rw [toList_line_of_nil]
    simp [hname, hvalue]
  · have htext : '\n' ∉ labels.text.toList :=
      Labels.newline_notMem_text fun label hlabel => (h.labels label hlabel).notMem (by decide)
    rw [toList_line_of_labels name hne]
    simp [hname, htext, hvalue]

end Point

end Exposition

end WsGateway
