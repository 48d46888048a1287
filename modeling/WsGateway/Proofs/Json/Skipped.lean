import WsGateway.Proofs.Json.Grammar

/-!
# What is skipped

Whatever the skippers of the reader pass over is well-formed (`skipNested_ok`), with the blanks that
stand in front of it. Strings and numbers come first, by what their readers can do with each
character. For a list or an object the blanks that are skipped in front of a comma or a bracket are
counted to the item before it. The whole is an induction on the nesting that is left.
-/

namespace WsGateway.Json

/-! ## Scalars -/

theorem exists_blanks (s : List Char) : ∃ gap, Blanks gap ∧ s = gap ++ skipBlanks s :=
  ⟨s.takeWhile isBlank, List.all_eq_true.mp List.all_takeWhile,
    List.takeWhile_append_dropWhile.symm⟩

theorem isHexDigit_of_hexValue? {c : Char} {n : Nat} (h : Text.hexValue? c = some n) :
    IsHexDigit c := by
  unfold Text.hexValue? at h
  split at h
  · next hc => exact .inl hc
  split at h
  · next hc => exact .inr (.inl hc)
  split at h
  · next hc => exact .inr (.inr hc)
  cases h

theorem readHex_ok {s r : List Char} {n : Nat} (h : readHex s = .ok (n, r)) :
    ∃ digits, digits.length = 4 ∧ (∀ d ∈ digits, IsHexDigit d) ∧ s = digits ++ r := by
  simp only [readHex] at h
  split at h
  · next a b c d rest =>
    split at h
    · next ha hb hc hd =>
      cases h
      refine ⟨[a, b, c, d], rfl, ?_, rfl⟩
      simp only [List.forall_mem_cons, List.not_mem_nil, false_imp_iff, implies_true, and_true]
      exact ⟨isHexDigit_of_hexValue? ha, isHexDigit_of_hexValue? hb, isHexDigit_of_hexValue? hc,
        isHexDigit_of_hexValue? hd⟩
    · cases h
  · cases h

theorem isShortEscape_iff {c : Char} :
    isShortEscape c = true ↔ c ∈ ['"', '\\', '/', 'b', 'f', 'n', 'r', 't'] := by
  constructor
  · intro h
    unfold isShortEscape shortEscape? at h
    split at h
    all_goals first | decide | cases h
  · intro h
    simp only [List.mem_cons, List.not_mem_nil, or_false] at h
    rcases h with rfl | rfl | rfl | rfl | rfl | rfl | rfl | rfl <;> rfl

/-- What is skipped as the inside of a string is characters of the grammar and a quote. -/
theorem skipCharsFrom_ok {n : Nat} {s r : List Char} (h : skipCharsFrom n s = .ok r) :
    ∃ chars : List (List Char), (∀ text ∈ chars, CharText text) ∧
      s = chars.flatten ++ '"' :: r := by
  -- one character in front of those that the induction gives
  have hcons : ∀ {text s' : List Char}, CharText text →
      (∃ chars : List (List Char), (∀ text ∈ chars, CharText text) ∧
        s' = chars.flatten ++ '"' :: r) →
      ∃ chars : List (List Char), (∀ text ∈ chars, CharText text) ∧
        text ++ s' = chars.flatten ++ '"' :: r := by
    rintro text s' htext ⟨chars, hchars, rfl⟩
    refine ⟨text :: chars, List.forall_mem_cons.mpr ⟨htext, hchars⟩, ?_⟩
    rw [List.flatten_cons, List.append_assoc]
  induction n generalizing s with
  | zero => cases h
  | succ n ih =>
    cases s with
    | nil => cases h
    | cons c s =>
      rw [skipCharsFrom.eq_def] at h
      dsimp only at h
      split at h
      · next hquote =>
        cases h
        exact ⟨[], by simp, by rw [hquote]; rfl⟩
      split at h
      · next hslash =>
        subst hslash
        split at h
        · cases h
        · rw [bind_eq_ok] at h
          obtain ⟨⟨m, s'⟩, hhex, h⟩ := h
          obtain ⟨digits, hlength, hdigits, rfl⟩ := readHex_ok hhex
          exact hcons (.number hlength hdigits) (ih h)
        · split at h
          · next hshort => exact hcons (.short (isShortEscape_iff.mp hshort)) (ih h)
          · cases h
      split at h
      · cases h
      · next hquote hslash hlow => exact hcons (.plain hquote hslash (by omega)) (ih h)

theorem spanDigits_fst (s : List Char) : ∀ d ∈ (spanDigits s).1, d.isDigit :=
  List.all_eq_true.mp List.all_takeWhile

theorem append_spanDigits (s : List Char) : (spanDigits s).1 ++ (spanDigits s).2 = s :=
  List.takeWhile_append_dropWhile

namespace Numeral

/-- What is read as whole digits is whole digits of the grammar. -/
theorem readWhole_ok {atEnd : Cause} {s ds r : List Char} (h : readWhole atEnd s = .ok (ds, r)) :
    WholeDigits ds ∧ s = ds ++ r := by
  cases s with
  | nil => cases h
  | cons c s =>
    simp only [readWhole] at h
    -- A zero has no digit behind it; any other first digit begins the longest run of digits.
    split at h
    · next hzero =>
      subst hzero
      split at h
      · split at h
        · cases h
        · cases h
          exact ⟨.zero, rfl⟩
      · cases h
        exact ⟨.zero, rfl⟩
    split at h
    · next hne hdigit =>
      have hspan : spanDigits (c :: s) = (c :: (spanDigits s).1, (spanDigits s).2) := by
        simp [spanDigits, hdigit]
      have hall : ∀ d ∈ c :: (spanDigits s).1, d.isDigit :=
        List.forall_mem_cons.mpr ⟨hdigit, spanDigits_fst s⟩
      rw [hspan] at h
      cases h
      exact ⟨.nonzero hne hall, by rw [List.cons_append, append_spanDigits]⟩
    · cases h

/-- What is read as a fraction is a fraction of the grammar, or nothing. -/
theorem readFraction_ok {atEnd : Cause} {s ds r : List Char}
    (h : readFraction atEnd s = .ok (ds, r)) :
    (∀ d ∈ ds, d.isDigit) ∧ s = fractionText ds ++ r := by
  unfold readFraction at h
  split at h
  · split at h
    · cases h
    · next c s' =>
      split at h
      · next hdigit =>
        have hspan : spanDigits (c :: s') = (c :: (spanDigits s').1, (spanDigits s').2) := by
          simp [spanDigits, hdigit]
        rw [hspan] at h
        cases h
        refine ⟨List.forall_mem_cons.mpr ⟨hdigit, spanDigits_fst s'⟩, ?_⟩
        rw [fractionText, if_neg (List.cons_ne_nil _ _), List.cons_append, List.cons_append,
          append_spanDigits]
      · cases h
  · cases h
    exact ⟨by simp, rfl⟩

theorem readPower_ok {atEnd : Cause} {negative : Bool} {s r : List Char} {e : Bool × List Char}
    (h : readPower atEnd negative s = .ok (e, r)) :
    ∃ digits, digits ≠ [] ∧ (∀ d ∈ digits, d.isDigit) ∧ s = digits ++ r := by
  cases s with
  | nil => cases h
  | cons c s =>
    simp only [readPower] at h
    split at h
    · next hdigit =>
      have hspan : (spanDigits (c :: s)).1 = c :: (spanDigits s).1 := by
        simp [spanDigits, hdigit]
      cases h
      exact ⟨(spanDigits (c :: s)).1, by rw [hspan]; exact List.cons_ne_nil _ _,
        spanDigits_fst _, (append_spanDigits _).symm⟩
    · cases h

theorem readExponent_ok {atEnd : Cause} {s r : List Char} {e : Bool × List Char}
    (h : readExponent atEnd s = .ok (e, r)) {letter : Char}
    (hletter : letter = 'e' ∨ letter = 'E') :
    ∃ text, ExponentText text ∧ letter :: s = text ++ r := by
  have hpower : ∀ {negative : Bool} {s' sign : List Char},
      (sign = [] ∨ sign = ['+'] ∨ sign = ['-']) → readPower atEnd negative s' = .ok (e, r) →
      ∃ text, ExponentText text ∧ letter :: (sign ++ s') = text ++ r := by
    intro negative s' sign hsign hs'
    obtain ⟨digits, hne, hdigits, rfl⟩ := readPower_ok hs'
    exact ⟨_, .present hletter hsign hne hdigits, by simp⟩
  rw [readExponent_eq] at h
  split at h
  · exact hpower (.inr (.inl rfl)) h
  · exact hpower (.inr (.inr rfl)) h
  · exact hpower (.inl rfl) h

/-- What is read as a numeral is a number of the grammar. -/
theorem read_ok {atEnd : Cause} {negative : Bool} {s : List Char} {n : Numeral}
    (h : read atEnd negative s = .ok n) {sign : List Char} (hsign : sign = [] ∨ sign = ['-']) :
    ∃ text, NumberText text ∧ sign ++ s = text ++ n.rest := by
  rw [read, bind_eq_ok] at h
  obtain ⟨⟨whole, s₁⟩, hwhole, h⟩ := h
  dsimp only at h
  rw [bind_eq_ok] at h
  obtain ⟨⟨fraction, s₂⟩, hfraction, h⟩ := h
  obtain ⟨hdigits, rfl⟩ := readWhole_ok hwhole
  obtain ⟨hplaces, rfl⟩ := readFraction_ok hfraction
  -- Whatever is read as the exponent, the parts before it are the same.
  have hparts : ∀ {exponent : List Char}, ExponentText exponent → s₂ = exponent ++ n.rest →
      ∃ text, NumberText text ∧
        sign ++ (whole ++ (fractionText fraction ++ s₂)) = text ++ n.rest := by
    intro exponent hexponent hs₂
    exact ⟨_, .intro hsign hdigits hplaces hexponent, by rw [hs₂]; simp⟩
  dsimp only at h
  split at h
  · next c s' =>
    split at h
    · next hletter =>
      rw [bind_eq_ok] at h
      obtain ⟨⟨e, s₃⟩, he, h⟩ := h
      cases h
      obtain ⟨text, htext, heq⟩ := readExponent_ok he hletter
      exact hparts htext heq
    · cases h
      exact hparts .absent rfl
  · cases h
    exact hparts .absent rfl

end Numeral

theorem skipNumber_ok {s r : List Char} (h : skipNumber s = .ok r) :
    ∃ text, NumberText text ∧ s = text ++ r := by
  unfold skipNumber at h
  rw [bind_eq_ok] at h
  obtain ⟨n, hn, h⟩ := h
  split at hn
  · cases h
    exact Numeral.read_ok hn (.inr rfl)
  · cases h
    exact Numeral.read_ok hn (.inl rfl)

/-! ## Lists and objects -/

/-- A well-formed text with blanks behind it. -/
theorem WellFormed.append_blanks {text gap : List Char} (h : WellFormed text) (hgap : Blanks gap) :
    WellFormed (text ++ gap) :=
  .blanks blanks_nil h hgap

/-- A reader that looks at the first character behind the blanks. -/
theorem ok_behind_blanks {α : Type} {s : List Char} {fault : Fault}
    {f : Char → List Char → Except Fault α} {a : α}
    (h : (match skipBlanks s with
      | [] => Except.error fault
      | c :: s' => f c s') = .ok a) :
    ∃ gap c s', Blanks gap ∧ s = gap ++ c :: s' ∧ f c s' = .ok a := by
  obtain ⟨gap, hgap, hs⟩ := exists_blanks s
  cases hblanks : skipBlanks s with
  | nil =>
    rw [hblanks] at h
    cases h
  | cons c s' =>
    rw [hblanks] at h hs
    exact ⟨gap, c, s', hgap, hs, h⟩

theorem skipToElement_done {first : Bool} {s r : List Char}
    (h : skipToElement first s = .ok (.done r)) : ∃ gap, Blanks gap ∧ s = gap ++ ']' :: r := by
  obtain ⟨gap, c, s', hgap, rfl, hnext⟩ := ok_behind_blanks h
  split at hnext
  · next hclose =>
    cases hnext
    exact ⟨gap, hgap, by rw [hclose]⟩
  · split at hnext
    · cases hnext
    · split at hnext <;> cases hnext

theorem skipToElement_first {s r : List Char} (h : skipToElement true s = .ok (.item r)) :
    ∃ gap, Blanks gap ∧ s = gap ++ r := by
  obtain ⟨gap, c, s', hgap, rfl, hnext⟩ := ok_behind_blanks h
  split at hnext
  · cases hnext
  · cases hnext
    exact ⟨gap, hgap, rfl⟩

theorem skipToElement_next {s r : List Char} (h : skipToElement false s = .ok (.item r)) :
    ∃ gap, Blanks gap ∧ s = gap ++ ',' :: r := by
  obtain ⟨gap, c, s', hgap, rfl, hnext⟩ := ok_behind_blanks h
  rw [if_neg Bool.false_ne_true] at hnext
  split at hnext
  · cases hnext
  · split at hnext
    · next hcomma =>
      cases hnext
      exact ⟨gap, hgap, by rw [hcomma]⟩
    · cases hnext

theorem skipToName_ok {s r : List Char} (h : skipToName s = .ok r) :
    ∃ gap, Blanks gap ∧ s = gap ++ '"' :: r := by
  obtain ⟨gap, c, s', hgap, rfl, hnext⟩ := ok_behind_blanks h
  split at hnext
  · next hquote =>
    cases hnext
    exact ⟨gap, hgap, by rw [hquote]⟩
  · cases hnext

theorem readColon_ok {s r : List Char} (h : readColon s = .ok r) :
    ∃ gap, Blanks gap ∧ s = gap ++ ':' :: r := by
  obtain ⟨gap, hgap, hs⟩ := exists_blanks s
  rw [readColon_eq_ok_iff.mp h] at hs
  exact ⟨gap, hgap, hs⟩

theorem skipToMember_done {first : Bool} {s r : List Char}
    (h : skipToMember first s = .ok (.done r)) : ∃ gap, Blanks gap ∧ s = gap ++ '\x7d' :: r := by
  have hname : ∀ s, (do
      let s ← skipToName s
      pure (Step.item s)) ≠ Except.ok (Step.done r) := by
    intro s hs
    obtain ⟨s', -, hs'⟩ := bind_eq_ok.mp hs
    cases hs'
  obtain ⟨gap, c, s', hgap, rfl, hnext⟩ := ok_behind_blanks h
  split at hnext
  · next hclose =>
    cases hnext
    exact ⟨gap, hgap, by rw [hclose]⟩
  · split at hnext
    · exact absurd hnext (hname _)
    · split at hnext
      · exact absurd hnext (hname _)
      · cases hnext

theorem skipToMember_first {s r : List Char} (h : skipToMember true s = .ok (.item r)) :
    ∃ gap, Blanks gap ∧ s = gap ++ '"' :: r := by
  obtain ⟨gap, c, s', hgap, rfl, hnext⟩ := ok_behind_blanks h
  rw [if_pos rfl] at hnext
  split at hnext
  · cases hnext
  · obtain ⟨s₁, hname, hnext⟩ := bind_eq_ok.mp hnext
    cases hnext
    obtain ⟨gap', hgap', heq⟩ := skipToName_ok hname
    refine ⟨gap ++ gap', ?_, by rw [heq, List.append_assoc]⟩
    exact fun d hd => (List.mem_append.mp hd).elim (hgap d) (hgap' d)

theorem skipToMember_next {s r : List Char} (h : skipToMember false s = .ok (.item r)) :
    ∃ gap gap', Blanks gap ∧ Blanks gap' ∧ s = gap ++ ',' :: (gap' ++ '"' :: r) := by
  obtain ⟨gap, c, s', hgap, rfl, hnext⟩ := ok_behind_blanks h
  rw [if_neg Bool.false_ne_true] at hnext
  split at hnext
  · cases hnext
  · split at hnext
    · next hcomma =>
      obtain ⟨s₁, hname, hnext⟩ := bind_eq_ok.mp hnext
      cases hnext
      obtain ⟨gap', hgap', heq⟩ := skipToName_ok hname
      exact ⟨gap, gap', hgap, hgap', by rw [hcomma, heq]⟩
    · cases hnext

/-- What a skipper passes over is well-formed. -/
def SkipsWellFormed (skip : List Char → Except Fault (List Char)) : Prop :=
  ∀ ⦃s r⦄, skip s = .ok r → ∃ text, WellFormed text ∧ s = text ++ r

section Parts

variable {skip : List Char → Except Fault (List Char)} (hskip : SkipsWellFormed skip)

include hskip in
/-- What is skipped behind an element is elements of the grammar behind commas, and a bracket. -/
theorem skipElements_next {n : Nat} {s r : List Char}
    (h : skipElements skip n false s = .ok r) :
    ∃ (gap : List Char) (items : List (List Char)), Blanks gap ∧
      (∀ item ∈ items, WellFormed item) ∧
      s = gap ++ ((items.flatMap fun y => ',' :: y) ++ ']' :: r) := by
  induction n generalizing s with
  | zero => cases h
  | succ n ih =>
    rcases skipElements_succ_iff.mp h with hstep | ⟨s', s₁, hstep, hitem, hrest⟩
    · obtain ⟨gap, hgap, rfl⟩ := skipToElement_done hstep
      exact ⟨gap, [], hgap, by simp, rfl⟩
    · obtain ⟨gap, hgap, rfl⟩ := skipToElement_next hstep
      obtain ⟨text, htext, rfl⟩ := hskip hitem
      -- the blanks in front of the next comma belong to this item
      obtain ⟨gap', items, hgap', hitems, rfl⟩ := ih hrest
      refine ⟨gap, (text ++ gap') :: items, hgap,
        List.forall_mem_cons.mpr ⟨htext.append_blanks hgap', hitems⟩, ?_⟩
      simp only [List.flatMap_cons, List.append_assoc, List.cons_append]

include hskip in
/-- A list whose items are passed over is well-formed. -/
theorem skipElements_ok {n : Nat} {s r : List Char} (h : skipElements skip n true s = .ok r) :
    ∃ text, WellFormed text ∧ '[' :: s = text ++ r := by
  cases n with
  | zero => cases h
  | succ n =>
    rcases skipElements_succ_iff.mp h with hstep | ⟨s', s₁, hstep, hitem, hrest⟩
    · obtain ⟨gap, hgap, rfl⟩ := skipToElement_done hstep
      exact ⟨_, .array gap [] hgap (by simp), by simp [commaSeparated]⟩
    · obtain ⟨gap, hgap, rfl⟩ := skipToElement_first hstep
      obtain ⟨text, htext, rfl⟩ := hskip hitem
      obtain ⟨gap', items, hgap', hitems, rfl⟩ := skipElements_next hskip hrest
      refine ⟨_, .array gap ((text ++ gap') :: items) hgap
        (List.forall_mem_cons.mpr ⟨htext.append_blanks hgap', hitems⟩), ?_⟩
      simp [commaSeparated]

include hskip in
/-- A member, from behind the opening quote of its name. -/
theorem skipMember_ok {limit : Nat} {s s₁ s₂ r : List Char} (hname : skipString limit s = .ok s₁)
    (hcolon : readColon s₁ = .ok s₂) (hvalue : skip s₂ = .ok r) {gap : List Char}
    (hgap : Blanks gap) :
    ∃ name text, NameText name ∧ WellFormed text ∧
      gap ++ '"' :: s = name ++ ':' :: (text ++ r) := by
  obtain ⟨chars, hchars, rfl⟩ := skipCharsFrom_ok hname
  obtain ⟨gap', hgap', rfl⟩ := readColon_ok hcolon
  obtain ⟨text, htext, rfl⟩ := hskip hvalue
  exact ⟨_, text, .intro hgap (.intro hchars) hgap', htext, by simp⟩

include hskip in
/-- What is skipped behind a member is members of the grammar behind commas, and a brace. -/
theorem skipMembers_next {limit n : Nat} {s r : List Char}
    (h : skipMembers limit skip n false s = .ok r) :
    ∃ (gap : List Char) (members : List (List Char × List Char)), Blanks gap ∧
      (∀ m ∈ members, NameText m.1) ∧ (∀ m ∈ members, WellFormed m.2) ∧
      s = gap ++ (((members.map fun m => m.1 ++ ':' :: m.2).flatMap fun y => ',' :: y) ++
        '\x7d' :: r) := by
  -- Induction on the fuel; blanks before a comma or a brace go to the value before them.
  induction n generalizing s with
  | zero => cases h
  | succ n ih =>
    rcases skipMembers_succ_iff.mp h with
      hstep | ⟨s', s₁, s₂, s₃, hstep, hname, hcolon, hvalue, hrest⟩
    · obtain ⟨gap, hgap, rfl⟩ := skipToMember_done hstep
      exact ⟨gap, [], hgap, by simp, by simp, rfl⟩
    · obtain ⟨gap, inner, hgap, hinner, rfl⟩ := skipToMember_next hstep
      obtain ⟨name, text, hname, htext, heq⟩ := skipMember_ok hskip hname hcolon hvalue hinner
      obtain ⟨gap', members, hgap', hnames, hvalues, rfl⟩ := ih hrest
      refine ⟨gap, (name, text ++ gap') :: members, hgap,
        List.forall_mem_cons.mpr ⟨hname, hnames⟩,
        List.forall_mem_cons.mpr ⟨htext.append_blanks hgap', hvalues⟩, ?_⟩
      rw [heq]
      simp only [List.map_cons, List.flatMap_cons, List.append_assoc, List.cons_append]

include hskip in
/-- An object whose values are passed over is well-formed. -/
theorem skipMembers_ok {limit n : Nat} {s r : List Char}
    (h : skipMembers limit skip n true s = .ok r) :
    ∃ text, WellFormed text ∧ '\x7b' :: s = text ++ r := by
  cases n with
  | zero => cases h
  | succ n =>
    rcases skipMembers_succ_iff.mp h with
      hstep | ⟨s', s₁, s₂, s₃, hstep, hname, hcolon, hvalue, hrest⟩
    · obtain ⟨gap, hgap, rfl⟩ := skipToMember_done hstep
      exact ⟨_, .object gap [] hgap (by simp) (by simp), by simp [commaSeparated]⟩
    · obtain ⟨gap, hgap, rfl⟩ := skipToMember_first hstep
      obtain ⟨name, text, hname, htext, heq⟩ := skipMember_ok hskip hname hcolon hvalue hgap
      obtain ⟨gap', members, hgap', hnames, hvalues, rfl⟩ := skipMembers_next hskip hrest
      refine ⟨_, .object [] ((name, text ++ gap') :: members) blanks_nil
        (List.forall_mem_cons.mpr ⟨hname, hnames⟩)
        (List.forall_mem_cons.mpr ⟨htext.append_blanks hgap', hvalues⟩), ?_⟩
      rw [heq]
      simp [commaSeparated]

end Parts

/-! ## Values -/

/-- **What is passed over is well-formed**, with the blanks in front of it. -/
theorem skipNested_ok (limit depth : Nat) : SkipsWellFormed (skipNested limit depth) := by
  induction depth using Nat.strongRecOn with
  | ind depth ih =>
    intro s r h
    obtain ⟨gap, hgap, hs⟩ := exists_blanks s
    -- the blanks in front belong to the text
    suffices hvalue : ∃ text, WellFormed text ∧ skipBlanks s = text ++ r by
      obtain ⟨text, htext, heq⟩ := hvalue
      refine ⟨gap ++ (text ++ []), .blanks hgap htext blanks_nil, ?_⟩
      rw [List.append_nil, List.append_assoc, ← heq]
      exact hs
    cases hblanks : skipBlanks s with
    | nil =>
      rw [skipNested_nil _ hblanks] at h
      cases h
    | cons c s' =>
      rcases head_cases c with rfl | rfl | rfl | rfl | rfl | rfl | hc
      · rw [skipNested_null _ hblanks] at h
        exact ⟨_, .null, congrArg ('n' :: ·) (readWord_eq_ok_iff.mp h)⟩
      · rw [skipNested_true _ hblanks] at h
        exact ⟨_, .true, congrArg ('t' :: ·) (readWord_eq_ok_iff.mp h)⟩
      · rw [skipNested_false _ hblanks] at h
        exact ⟨_, .false, congrArg ('f' :: ·) (readWord_eq_ok_iff.mp h)⟩
      · rw [skipNested_string _ hblanks] at h
        obtain ⟨chars, hchars, rfl⟩ := skipCharsFrom_ok h
        exact ⟨_, .string (.intro hchars), by simp⟩
      · cases depth with
        | zero =>
          rw [skipNested_zero (.inl rfl) hblanks] at h
          cases h
        | succ depth =>
          rw [skipNested_array _ hblanks] at h
          exact skipElements_ok (ih depth (Nat.lt_succ_self depth)) h
      · cases depth with
        | zero =>
          rw [skipNested_zero (.inr rfl) hblanks] at h
          cases h
        | succ depth =>
          rw [skipNested_object _ hblanks] at h
          exact skipMembers_ok (ih depth (Nat.lt_succ_self depth)) h
      · rw [skipNested_other _ hc hblanks] at h
        split at h
        · obtain ⟨text, htext, heq⟩ := skipNumber_ok h
          exact ⟨text, .number htext, heq⟩
        · cases h

end WsGateway.Json
