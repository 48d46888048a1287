import Mathlib.Data.List.DropRight
import WsGateway.Proofs.Json.Skipped

/-!
# Which texts are kept verbatim

A text is kept verbatim just if it is well-formed (`isSome_verbatim?_iff`). That what is kept is
well-formed is known from what the skippers pass over; here it is shown that they get past whatever
is well-formed (`WellFormed.passes`), up to blanks that they leave behind it. This is an induction
on the way in which the text is well-formed; its length bounds the nesting and the repetitions.
-/

namespace WsGateway.Json

/-! ## Strings -/

theorem exists_hexValue? {c : Char} (h : IsHexDigit c) : ∃ n, Text.hexValue? c = some n := by
  unfold Text.hexValue?
  split
  · exact ⟨_, rfl⟩
  split
  · exact ⟨_, rfl⟩
  split
  · exact ⟨_, rfl⟩
  · next hdigit hlower hupper => exact absurd h (by simp [IsHexDigit, hdigit, hlower, hupper])

theorem exists_readHex {digits : List Char} (hlength : digits.length = 4)
    (h : ∀ d ∈ digits, IsHexDigit d) (t : List Char) :
    ∃ n, readHex (digits ++ t) = .ok (n, t) := by
  match digits, hlength with
  | [a, b, c, d], _ =>
    obtain ⟨na, ha⟩ := exists_hexValue? (h a (by simp))
    obtain ⟨nb, hb⟩ := exists_hexValue? (h b (by simp))
    obtain ⟨nc, hc⟩ := exists_hexValue? (h c (by simp))
    obtain ⟨nd, hd⟩ := exists_hexValue? (h d (by simp))
    refine ⟨((na * 16 + nb) * 16 + nc) * 16 + nd, ?_⟩
    simp only [List.cons_append, List.nil_append, readHex, ha, hb, hc, hd]

/-- A character of the grammar is skipped in one round. -/
theorem skipCharsFrom_charText {text : List Char} (h : CharText text) (n : Nat) (t : List Char) :
    skipCharsFrom (n + 1) (text ++ t) = skipCharsFrom n t := by
  cases h with
  | plain hquote hslash hcontrol =>
    rw [List.singleton_append, skipCharsFrom.eq_def]
    dsimp only
    rw [if_neg hquote, if_neg hslash, if_neg (by omega)]
  | @short c hshort =>
    -- `u` is no short escape: it is the fourth kind, with four digits behind it.
    have hu : c ≠ 'u' := by
      rintro rfl
      revert hshort
      decide
    rw [List.cons_append, List.singleton_append, skipCharsFrom.eq_def]
    dsimp only
    rw [if_neg (by decide), if_pos rfl]
    split
    · next heq => cases heq
    · next heq => exact absurd (List.cons.inj heq).1 hu
    · next heq =>
      cases heq
      rw [if_pos (isShortEscape_iff.mpr hshort)]
  | @number digits hlength hdigits =>
    obtain ⟨m, hhex⟩ := exists_readHex hlength hdigits t
    rw [List.cons_append, List.cons_append, skipCharsFrom.eq_def]
    dsimp only
    rw [if_neg (by decide), if_pos rfl]
    simp only [hhex, bind, Except.bind]

theorem skipCharsFrom_flatten {chars : List (List Char)} (h : ∀ text ∈ chars, CharText text)
    {n : Nat} (hn : chars.length < n) (t : List Char) :
    skipCharsFrom n (chars.flatten ++ '"' :: t) = .ok t := by
  obtain ⟨n, rfl⟩ : ∃ m, n = m + 1 := ⟨n - 1, by omega⟩
  induction chars generalizing n with
  | nil => rfl
  | cons text chars ih =>
    rw [List.length_cons] at hn
    obtain ⟨n, rfl⟩ : ∃ m, n = m + 1 := ⟨n - 1, by omega⟩
    rw [List.flatten_cons, List.append_assoc, skipCharsFrom_charText (h text List.mem_cons_self)]
    exact ih (fun text htext => h text (List.mem_cons_of_mem _ htext)) n (by omega)

theorem CharText.length_pos {text : List Char} (h : CharText text) : 0 < text.length := by
  cases h <;> simp

theorem count_le_flatten {chars : List (List Char)} (h : ∀ text ∈ chars, 0 < text.length) :
    chars.length ≤ chars.flatten.length := by
  induction chars with
  | nil => exact Nat.zero_le _
  | cons text chars ih =>
    have hpos := h text List.mem_cons_self
    have hle := ih fun text htext => h text (List.mem_cons_of_mem _ htext)
    rw [List.flatten_cons, List.length_append, List.length_cons]
    omega

/-- A string is skipped from behind its opening quote. -/
theorem StringText.skipped {text : List Char} (h : StringText text) {limit : Nat}
    (hlimit : text.length ≤ limit) (t : List Char) :
    ∃ inner, text ++ t = '"' :: inner ∧ skipString limit inner = .ok t := by
  cases h with
  | @intro chars hchars =>
    refine ⟨chars.flatten ++ '"' :: t, by simp, ?_⟩
    have hcount := count_le_flatten fun text htext => (hchars text htext).length_pos
    simp only [List.length_cons, List.length_append] at hlimit
    exact skipCharsFrom_flatten hchars (by omega) t

/-- A name is found behind the blanks in front of it, and skipped with the colon behind it. -/
theorem NameText.skipped {name : List Char} (h : NameText name) {limit : Nat}
    (hlimit : name.length ≤ limit) (t : List Char) :
    ∃ inner rest, skipBlanks (name ++ ':' :: t) = '"' :: inner ∧
      skipString limit inner = .ok rest ∧ readColon rest = .ok t := by
  cases h with
  | @intro before text after hbefore htext hafter =>
    simp only [List.length_append] at hlimit
    have hlength : text.length ≤ limit := by omega
    obtain ⟨inner, heq, hinner⟩ := htext.skipped hlength (after ++ ':' :: t)
    refine ⟨inner, after ++ ':' :: t, ?_, hinner, ?_⟩
    · simp only [List.append_assoc]
      rw [skipBlanks_blanks hbefore, heq, skipBlanks_cons rfl]
    · rw [readColon_eq_ok_iff, skipBlanks_blanks hafter, skipBlanks_cons rfl]

/-! ## Numbers -/

namespace Numeral

theorem readPower_append (atEnd : Cause) (negative : Bool) {ds t : List Char} (hne : ds ≠ [])
    (hds : ∀ d ∈ ds, d.isDigit) (ht : EndsNumber t) :
    readPower atEnd negative (ds ++ t) = .ok ((negative, ds), t) := by
  cases ds with
  | nil => exact absurd rfl hne
  | cons d ds =>
    have hspan := spanDigits_append hds fun c hc => (ht c hc).1
    rw [List.cons_append] at hspan ⊢
    simp only [readPower]
    rw [if_pos (hds d List.mem_cons_self), hspan]

/-- An exponent of the grammar is read. -/
theorem exists_readExponent {sign digits : List Char}
    (hsign : sign = [] ∨ sign = ['+'] ∨ sign = ['-']) (hne : digits ≠ [])
    (hdigits : ∀ d ∈ digits, d.isDigit) {t : List Char} (ht : EndsNumber t) (atEnd : Cause) :
    ∃ e, readExponent atEnd (sign ++ digits ++ t) = .ok (e, t) := by
  rcases hsign with rfl | rfl | rfl
  · cases digits with
    | nil => exact absurd rfl hne
    | cons d ds =>
      have hd : d.isDigit = true := hdigits d List.mem_cons_self
      refine ⟨(false, d :: ds), ?_⟩
      rw [readExponent_eq]
      -- a digit is no sign
      split
      · next heq =>
        cases heq
        exact absurd hd (by decide)
      · next heq =>
        cases heq
        exact absurd hd (by decide)
      · exact readPower_append atEnd false hne hdigits ht
  · exact ⟨_, readPower_append atEnd false hne hdigits ht⟩
  · exact ⟨_, readPower_append atEnd true hne hdigits ht⟩

/-- A numeral of the grammar is read, up to what follows it. -/
theorem exists_read {whole fraction exponent : List Char} (hwhole : WholeDigits whole)
    (hfraction : ∀ d ∈ fraction, d.isDigit) (hexponent : ExponentText exponent) {t : List Char}
    (ht : EndsNumber t) (atEnd : Cause) (negative : Bool) :
    ∃ n, read atEnd negative (whole ++ (fractionText fraction ++ (exponent ++ t))) = .ok n ∧
      n.rest = t := by
  -- the exponent begins with its letter, and the places with their point
  have hhead : ∀ c ∈ (exponent ++ t).head?, c.isDigit = false ∧ c ≠ '.' := by
    intro c hc
    cases hexponent with
    | absent => exact ⟨(ht c hc).1, (ht c hc).2.1⟩
    | present hletter =>
      obtain rfl := Option.some.inj hc
      rcases hletter with rfl | rfl <;> decide
  have hpoint : ∀ c ∈ (fractionText fraction ++ (exponent ++ t)).head?, c.isDigit = false := by
    intro c hc
    by_cases hnil : fraction = []
    · rw [fractionText, if_pos hnil, List.nil_append] at hc
      exact (hhead c hc).1
    · rw [fractionText, if_neg hnil] at hc
      obtain rfl : '.' = c := Option.some.inj hc
      decide
  simp only [read, readWhole_append hwhole hpoint, readFraction_append hfraction hhead, bind,
    Except.bind]
  cases hexponent with
  | absent =>
    cases t with
    | nil => exact ⟨_, rfl, rfl⟩
    | cons c cs =>
      obtain ⟨-, -, he, hE⟩ := ht c rfl
      refine ⟨⟨negative, whole, fraction, none, c :: cs⟩, ?_, rfl⟩
      simp [he, hE, pure, Except.pure]
  | @present letter sign digits hletter hsign hne hdigits =>
    obtain ⟨e, he⟩ := exists_readExponent hsign hne hdigits ht atEnd
    refine ⟨⟨negative, whole, fraction, some e, t⟩, ?_, rfl⟩
    simp only [List.cons_append]
    rw [if_pos hletter, he]
    rfl

end Numeral

/-- A number is skipped, whatever follows that does not go on with it. -/
theorem NumberText.skipped {text : List Char} (h : NumberText text) {t : List Char}
    (ht : EndsNumber t) :
    ∃ c cs, text = c :: cs ∧ (c = '-' ∨ c.isDigit = true) ∧
      skipNumber (c :: (cs ++ t)) = .ok t := by
  cases h with
  | @intro sign whole fraction exponent hsign hwhole hfraction hexponent =>
    obtain ⟨n, hread, hrest⟩ :=
      Numeral.exists_read hwhole hfraction hexponent ht .invalidNumber false
    obtain ⟨d, ds, hds, hd⟩ := hwhole.exists_cons
    rw [hds] at hread ⊢
    -- The sign is taken off before the numeral is read.
    rcases hsign with rfl | rfl
    · refine ⟨d, _, rfl, .inr hd, ?_⟩
      have hminus : d ≠ '-' := by
        rintro rfl
        exact absurd hd (by decide)
      simp only [List.cons_append] at hread ⊢
      simp [skipNumber, hminus, hread, hrest, bind, Except.bind, pure, Except.pure]
    · refine ⟨'-', _, rfl, .inl rfl, ?_⟩
      simp only [List.cons_append] at hread ⊢
      simp [skipNumber, hread, hrest, bind, Except.bind, pure, Except.pure]

/-! ## Lists and objects -/

/-- A skipper gets past a text, whatever follows, up to blanks. -/
def Passes (skip : List Char → Except Fault (List Char)) (text : List Char) : Prop :=
  ∀ t, EndsNumber t → ∃ gap, Blanks gap ∧ skip (text ++ t) = .ok (gap ++ t)

/-- Behind its blanks a text begins as a value does. -/
def BeginsBehindBlanks (text : List Char) : Prop :=
  ∃ c cs, skipBlanks text = c :: cs ∧ c ≠ ']'

/-- A value has a first character that is no blank. -/
theorem WellFormed.beginsBehindBlanks {text : List Char} (h : WellFormed text) :
    BeginsBehindBlanks text := by
  induction h with
  | null => exact ⟨'n', _, rfl, by decide⟩
  | true => exact ⟨'t', _, rfl, by decide⟩
  | false => exact ⟨'f', _, rfl, by decide⟩
  | number h =>
    obtain ⟨c, cs, rfl, hc, -⟩ := h.skipped endsNumber_nil
    refine ⟨c, cs, skipBlanks_cons (isBlank_of_number hc) cs, ?_⟩
    rintro rfl
    revert hc
    decide
  | string h =>
    cases h
    exact ⟨'"', _, skipBlanks_cons rfl _, by decide⟩
  | array => exact ⟨'[', _, skipBlanks_cons rfl _, by decide⟩
  | object => exact ⟨'\x7b', _, skipBlanks_cons rfl _, by decide⟩
  | @blanks before text after hbefore _ _ ih =>
    obtain ⟨c, cs, hc, hne⟩ := ih
    exact ⟨c, cs ++ after, by rw [skipBlanks_blanks hbefore, skipBlanks_append hc], hne⟩

section Steps

variable {gap : List Char} (hgap : Blanks gap)

include hgap

theorem skipToElement_close (first : Bool) (t : List Char) :
    skipToElement first (gap ++ ']' :: t) = .ok (.done t) := by
  rw [skipToElement, skipBlanks_blanks hgap, skipBlanks_cons rfl]
  rfl

theorem skipToElement_comma (s : List Char) :
    skipToElement false (gap ++ ',' :: s) = .ok (.item s) := by
  rw [skipToElement, skipBlanks_blanks hgap, skipBlanks_cons rfl]
  rfl

/-- The blanks of the first item are skipped with those in front of it. -/
theorem skipToElement_begin {item : List Char} (hitem : BeginsBehindBlanks item) (t : List Char) :
    skipToElement true (gap ++ (item ++ t)) = .ok (.item (skipBlanks (item ++ t))) := by
  obtain ⟨c, cs, hc, hne⟩ := hitem
  rw [skipToElement, skipBlanks_blanks hgap, skipBlanks_append hc]
  dsimp only
  rw [if_neg hne, if_pos rfl]

theorem skipToMember_close (first : Bool) (t : List Char) :
    skipToMember first (gap ++ '\x7d' :: t) = .ok (.done t) := by
  rw [skipToMember, skipBlanks_blanks hgap, skipBlanks_cons rfl]
  rfl

theorem skipToMember_comma {s inner : List Char} (h : skipBlanks s = '"' :: inner) :
    skipToMember false (gap ++ ',' :: s) = .ok (.item inner) := by
  rw [skipToMember, skipBlanks_blanks hgap, skipBlanks_cons rfl]
  simp [skipToName, h, bind, Except.bind, pure, Except.pure]

theorem skipToMember_begin {s inner : List Char} (h : skipBlanks s = '"' :: inner) :
    skipToMember true (gap ++ s) = .ok (.item inner) := by
  rw [skipToMember, skipBlanks_blanks hgap, h]
  simp [skipToName, skipBlanks_cons, isBlank, bind, Except.bind, pure, Except.pure]

end Steps

section Parts

variable {skip : List Char → Except Fault (List Char)} {limit : Nat}

theorem skipElements_item {first : Bool} {s s₁ s₂ : List Char}
    (hstep : skipToElement first s = .ok (.item s₁)) (hitem : skip s₁ = .ok s₂) (n : Nat) :
    skipElements skip (n + 1) first s = skipElements skip n false s₂ := by
  rw [skipElements, hstep]
  simp only [bind, Except.bind, hitem]

theorem skipElements_done {first : Bool} {s r : List Char}
    (hstep : skipToElement first s = .ok (.done r)) (n : Nat) :
    skipElements skip (n + 1) first s = .ok r := by
  rw [skipElements, hstep]
  rfl

theorem skipMembers_done {first : Bool} {s r : List Char}
    (hstep : skipToMember first s = .ok (.done r)) (n : Nat) :
    skipMembers limit skip (n + 1) first s = .ok r := by
  rw [skipMembers, hstep]
  rfl

theorem skipMembers_item {first : Bool} {s s₁ s₂ s₃ s₄ : List Char}
    (hstep : skipToMember first s = .ok (.item s₁)) (hname : skipString limit s₁ = .ok s₂)
    (hcolon : readColon s₂ = .ok s₃) (hvalue : skip s₃ = .ok s₄) (n : Nat) :
    skipMembers limit skip (n + 1) first s = skipMembers limit skip n false s₄ := by
  rw [skipMembers, hstep]
  simp only [bind, Except.bind, hname, hcolon, hvalue]

/-- Further elements of the grammar are skipped, up to the bracket. -/
theorem skipElements_passes_next {items : List (List Char)}
    (hitems : ∀ item ∈ items, Passes skip item) {n : Nat} (hn : items.length < n)
    {gap : List Char} (hgap : Blanks gap) (t : List Char) :
    skipElements skip n false (gap ++ ((items.flatMap fun y => ',' :: y) ++ ']' :: t)) = .ok t := by
  obtain ⟨n, rfl⟩ : ∃ m, n = m + 1 := ⟨n - 1, by omega⟩
  induction items generalizing n gap with
  | nil => exact skipElements_done (skipToElement_close hgap false t) n
  | cons item items ih =>
    rw [List.length_cons] at hn
    obtain ⟨n, rfl⟩ : ∃ m, n = m + 1 := ⟨n - 1, by omega⟩
    -- the blanks that the item leaves stand in front of the next comma
    obtain ⟨gap', hgap', hitem⟩ := hitems item List.mem_cons_self _
      (endsNumber_separated (.inl rfl) items t)
    simp only [List.flatMap_cons, List.cons_append, List.append_assoc]
    rw [skipElements_item (skipToElement_comma hgap _) hitem]
    exact ih (fun item h => hitems item (List.mem_cons_of_mem _ h)) hgap' n (by omega)

/-- A list is skipped if the skipper gets past its items. -/
theorem skipElements_passes (hskip : ∀ s, skip (skipBlanks s) = skip s) {items : List (List Char)}
    (hbegin : ∀ item ∈ items, BeginsBehindBlanks item) (hitems : ∀ item ∈ items, Passes skip item)
    {n : Nat} (hn : items.length < n) {gap : List Char} (hgap : Blanks gap) (t : List Char) :
    skipElements skip n true (gap ++ (commaSeparated items ++ ']' :: t)) = .ok t := by
  obtain ⟨n, rfl⟩ : ∃ m, n = m + 1 := ⟨n - 1, by omega⟩
  cases items with
  | nil => exact skipElements_done (skipToElement_close hgap true t) n
  | cons item items =>
    rw [List.length_cons] at hn
    obtain ⟨gap', hgap', hitem⟩ := hitems item List.mem_cons_self _
      (endsNumber_separated (.inl rfl) items t)
    rw [commaSeparated, List.append_assoc,
      skipElements_item (skipToElement_begin hgap (hbegin item List.mem_cons_self) _)
        ((hskip _).trans hitem)]
    exact skipElements_passes_next (fun item h => hitems item (List.mem_cons_of_mem _ h))
      (by omega) hgap' t

/-- Further members of the grammar are skipped, up to the brace. -/
theorem skipMembers_passes_next {members : List (List Char × List Char)}
    (hnames : ∀ m ∈ members, NameText m.1 ∧ m.1.length ≤ limit)
    (hvalues : ∀ m ∈ members, Passes skip m.2) {n : Nat} (hn : members.length < n)
    {gap : List Char} (hgap : Blanks gap) (t : List Char) :
    skipMembers limit skip n false (gap ++
        (((members.map fun m => m.1 ++ ':' :: m.2).flatMap fun y => ',' :: y) ++ '\x7d' :: t)) =
      .ok t := by
  obtain ⟨n, rfl⟩ : ∃ m, n = m + 1 := ⟨n - 1, by omega⟩
  induction members generalizing n gap with
  | nil => exact skipMembers_done (skipToMember_close hgap false t) n
  | cons m members ih =>
    rw [List.length_cons] at hn
    obtain ⟨n, rfl⟩ : ∃ m, n = m + 1 := ⟨n - 1, by omega⟩
    obtain ⟨hname, hlimit⟩ := hnames m List.mem_cons_self
    obtain ⟨gap', hgap', hvalue⟩ := hvalues m List.mem_cons_self _
      (endsNumber_separated (.inr rfl) (members.map fun m => m.1 ++ ':' :: m.2) t)
    obtain ⟨inner, rest, hquote, hstring, hcolon⟩ := hname.skipped hlimit (m.2 ++
      (((members.map fun m => m.1 ++ ':' :: m.2).flatMap fun y => ',' :: y) ++ '\x7d' :: t))
    simp only [List.map_cons, List.flatMap_cons, List.cons_append, List.append_assoc]
    rw [skipMembers_item (skipToMember_comma hgap hquote) hstring hcolon hvalue]
    exact ih (fun m h => hnames m (List.mem_cons_of_mem _ h))
      (fun m h => hvalues m (List.mem_cons_of_mem _ h)) hgap' n (by omega)

/-- An object is skipped if the skipper gets past its values. -/
theorem skipMembers_passes {members : List (List Char × List Char)}
    (hnames : ∀ m ∈ members, NameText m.1 ∧ m.1.length ≤ limit)
    (hvalues : ∀ m ∈ members, Passes skip m.2) {n : Nat} (hn : members.length < n)
    {gap : List Char} (hgap : Blanks gap) (t : List Char) :
    skipMembers limit skip n true (gap ++
        (commaSeparated (members.map fun m => m.1 ++ ':' :: m.2) ++ '\x7d' :: t)) = .ok t := by
  obtain ⟨n, rfl⟩ : ∃ m, n = m + 1 := ⟨n - 1, by omega⟩
  cases members with
  | nil => exact skipMembers_done (skipToMember_close hgap true t) n
  | cons m members =>
    rw [List.length_cons] at hn
    obtain ⟨hname, hlimit⟩ := hnames m List.mem_cons_self
    obtain ⟨gap', hgap', hvalue⟩ := hvalues m List.mem_cons_self _
      (endsNumber_separated (.inr rfl) (members.map fun m => m.1 ++ ':' :: m.2) t)
    obtain ⟨inner, rest, hquote, hstring, hcolon⟩ := hname.skipped hlimit (m.2 ++
      (((members.map fun m => m.1 ++ ':' :: m.2).flatMap fun y => ',' :: y) ++ '\x7d' :: t))
    rw [List.map_cons, commaSeparated, List.append_assoc, List.append_assoc, List.cons_append,
      skipMembers_item (skipToMember_begin hgap hquote) hstring hcolon hvalue]
    exact skipMembers_passes_next (fun m h => hnames m (List.mem_cons_of_mem _ h))
      (fun m h => hvalues m (List.mem_cons_of_mem _ h)) (by omega) hgap' t

end Parts

/-! ## Values -/

theorem skipBlanks_skipBlanks (s : List Char) : skipBlanks (skipBlanks s) = skipBlanks s :=
  List.dropWhile_idempotent _ _

theorem skipNested_skipBlanks (limit depth : Nat) (s : List Char) :
    skipNested limit depth (skipBlanks s) = skipNested limit depth s := by
  rw [skipNested_eq, skipBlanks_skipBlanks, ← skipNested_eq]

/-- Blanks end every number, and so does what ends every number behind them. -/
theorem endsNumber_blanks {gap : List Char} (hgap : Blanks gap) {t : List Char}
    (ht : EndsNumber t) : EndsNumber (gap ++ t) := by
  cases gap with
  | nil => exact ht
  | cons c cs =>
    intro d hd
    obtain rfl : c = d := Option.some.inj hd
    have hblank := hgap c List.mem_cons_self
    simp only [isBlank, Bool.or_eq_true, beq_iff_eq] at hblank
    rcases hblank with ((rfl | rfl) | rfl) | rfl <;> decide

theorem BeginsBehindBlanks.length_pos {text : List Char} (h : BeginsBehindBlanks text) :
    0 < text.length := by
  obtain ⟨c, cs, hc, -⟩ := h
  cases text with
  | nil => cases hc
  | cons => exact Nat.succ_pos _

/-- **What is well-formed is passed over**, if it is as long as the limits at most. -/
theorem WellFormed.passes {text : List Char} (h : WellFormed text) {limit depth : Nat}
    (hlimit : text.length ≤ limit) (hdepth : text.length ≤ depth) :
    Passes (skipNested limit depth) text := by
  induction h generalizing depth with
  | null =>
    intro t _
    exact ⟨[], blanks_nil, skipNested_null depth (skipBlanks_cons rfl _)⟩
  | true =>
    intro t _
    exact ⟨[], blanks_nil, skipNested_true depth (skipBlanks_cons rfl _)⟩
  | false =>
    intro t _
    exact ⟨[], blanks_nil, skipNested_false depth (skipBlanks_cons rfl _)⟩
  | number h =>
    intro t ht
    obtain ⟨c, cs, rfl, hc, hskip⟩ := h.skipped ht
    refine ⟨[], blanks_nil, ?_⟩
    rw [List.cons_append,
      skipNested_number depth hc (skipBlanks_cons (isBlank_of_number hc) _), hskip]
    rfl
  | string h =>
    intro t _
    obtain ⟨inner, heq, hskip⟩ := h.skipped hlimit t
    refine ⟨[], blanks_nil, ?_⟩
    rw [heq, skipNested_string depth (skipBlanks_cons rfl _), hskip]
    rfl
  | array gap items hgap hitems ih =>
    intro t _
    obtain ⟨depth, rfl⟩ : ∃ d, depth = d + 1 :=
      ⟨depth - 1, by rw [List.length_cons] at hdepth; omega⟩
    have hcount := count_le_commaSeparated items fun item h =>
      (hitems item h).beginsBehindBlanks.length_pos
    simp only [List.length_cons, List.length_append] at hlimit hdepth
    refine ⟨[], blanks_nil, ?_⟩
    simp only [List.cons_append, List.append_assoc, List.nil_append]
    rw [skipNested_array depth (skipBlanks_cons rfl _)]
    refine skipElements_passes (skipNested_skipBlanks limit depth)
      (fun item h => (hitems item h).beginsBehindBlanks) ?_ (by omega) hgap t
    intro item h
    have hlength := length_le_commaSeparated h
    exact ih item h (by omega) (by omega)
  | object gap members hgap hnames hvalues ih =>
    intro t _
    obtain ⟨depth, rfl⟩ : ∃ d, depth = d + 1 :=
      ⟨depth - 1, by rw [List.length_cons] at hdepth; omega⟩
    have hcount := count_le_commaSeparated (members.map fun m => m.1 ++ ':' :: m.2) (by
      intro x hx
      obtain ⟨m, -, rfl⟩ := List.mem_map.mp hx
      rw [List.length_append, List.length_cons]
      omega)
    have hmember : ∀ m ∈ members, m.1.length + m.2.length <
        (commaSeparated (members.map fun m => m.1 ++ ':' :: m.2)).length := by
      intro m hm
      have hle := length_le_commaSeparated (List.mem_map_of_mem
        (f := fun m : List Char × List Char => m.1 ++ ':' :: m.2) hm)
      rw [List.length_append, List.length_cons] at hle
      omega
    rw [List.length_map] at hcount
    simp only [List.length_cons, List.length_append] at hlimit hdepth
    refine ⟨[], blanks_nil, ?_⟩
    simp only [List.cons_append, List.append_assoc, List.nil_append]
    rw [skipNested_object depth (skipBlanks_cons rfl _)]
    refine skipMembers_passes ?_ ?_ (by omega) hgap t
    · intro m hm
      have hlength := hmember m hm
      exact ⟨hnames m hm, by omega⟩
    · intro m hm
      have hlength := hmember m hm
      exact ih m hm (by omega) (by omega)
  | @blanks before text after hbefore _ hafter ih =>
    intro t ht
    simp only [List.length_append] at hlimit hdepth
    obtain ⟨gap, hgap, hskip⟩ :=
      ih (by omega) (by omega : text.length ≤ depth) (after ++ t) (endsNumber_blanks hafter ht)
    refine ⟨gap ++ after, ?_, ?_⟩
    · exact fun c hc => (List.mem_append.mp hc).elim (hgap c) (hafter c)
    · -- the blanks in front make no difference, those behind are left
      rw [← skipNested_skipBlanks, List.append_assoc, List.append_assoc,
        skipBlanks_blanks hbefore, skipNested_skipBlanks, hskip, List.append_assoc]

/-! ## Whole texts -/

/-- A text ends where only blanks follow. -/
theorem readEnd_eq_ok_iff {s : List Char} : readEnd s = .ok () ↔ Blanks s := by
  have hnil : skipBlanks s = [] ↔ Blanks s := List.dropWhile_eq_nil_iff
  rw [← hnil]
  unfold readEnd
  cases skipBlanks s <;> simp

/-- A raw text is kept just if one value stands in it between blanks, and without the blanks. -/
theorem verbatim?_eq_some_iff {text kept : String} : verbatim? text = some kept ↔
    ∃ rest, Blanks rest ∧
      skipValue text.toList.length (skipBlanks text.toList) = .ok rest ∧
      kept = .ofList ((skipBlanks text.toList).take
        ((skipBlanks text.toList).length - rest.length)) := by
  -- The option forgets the fault, so the failure is the only case to tell apart.
  have hoption : verbatim? text = some kept ↔ readAll readVerbatim text.toList = .ok kept := by
    unfold verbatim?
    cases readAll readVerbatim text.toList <;> simp [Except.toOption]
  rw [hoption, readAll, bind_eq_ok]
  constructor
  · rintro ⟨⟨kept', rest⟩, hread, hend⟩
    dsimp only at hend
    rw [bind_eq_ok] at hend
    obtain ⟨_, hrest, hend⟩ := hend
    simp only [readVerbatim, bind_eq_ok] at hread
    obtain ⟨rest', hskip, hread⟩ := hread
    cases hread
    cases hend
    exact ⟨rest, readEnd_eq_ok_iff.mp hrest, hskip, rfl⟩
  · rintro ⟨rest, hblanks, hskip, hkept⟩
    refine ⟨(kept, rest), ?_, ?_⟩
    · simp only [readVerbatim, hskip, bind, Except.bind]
      rw [hkept]
      rfl
    · simp only [readEnd_eq_ok_iff.mpr hblanks, bind, Except.bind]
      rfl

/-- What is kept is well-formed, and stands between blanks. -/
theorem verbatim?_eq_some {text kept : String} (h : verbatim? text = some kept) :
    WellFormed kept.toList ∧ ∃ before after, Blanks before ∧ Blanks after ∧
      text.toList = before ++ (kept.toList ++ after) := by
  obtain ⟨rest, hrest, hskip, rfl⟩ := verbatim?_eq_some_iff.mp h
  obtain ⟨gap, hgap, htext⟩ := exists_blanks text.toList
  obtain ⟨inner, hinner, heq⟩ := skipNested_ok _ _ hskip
  have hkept : (skipBlanks text.toList).take
      ((skipBlanks text.toList).length - rest.length) = inner := by
    rw [heq, List.length_append, Nat.add_sub_cancel, List.take_left]
  rw [hkept, String.toList_ofList]
  exact ⟨hinner, gap, rest, hgap, hrest, heq ▸ htext⟩

/-- **A text is kept verbatim just if it is well-formed.** -/
theorem isSome_verbatim?_iff (text : String) :
    (verbatim? text).isSome ↔ WellFormed text.toList := by
  rw [Option.isSome_iff_exists]
  constructor
  · rintro ⟨kept, h⟩
    obtain ⟨hkept, before, after, hbefore, hafter, heq⟩ := verbatim?_eq_some h
    rw [heq]
    exact .blanks hbefore hkept hafter
  · intro h
    obtain ⟨gap, hgap, hskip⟩ := h.passes (Nat.le_refl _) (Nat.le_succ _) [] endsNumber_nil
    rw [List.append_nil, List.append_nil, ← skipNested_skipBlanks] at hskip
    exact ⟨_, verbatim?_eq_some_iff.mpr ⟨gap, hgap, hskip, rfl⟩⟩

end WsGateway.Json
