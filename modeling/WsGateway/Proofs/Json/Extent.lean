import WsGateway.Proofs.Json.Recognition

/-!
# How far a value goes

A reader that finds a value stops where the skipper stops (`skipNested_of_readValueWith`), although
it looks at more than the form: a value that can be read has the form of one. In front of what ends
numbers, a well-formed text is therefore read to its end, up to blanks (`WellFormed.rest_of_read`),
and a tight one is skipped without any (`Tight.skipValue_eq`).
The bounds of the skippers are larger, because a character beyond the first plane is one step for
the reader of a string and two for its skipper.
-/

namespace WsGateway.Json

/-! ## Strings -/

/-- An escape by number is one escape or the two of a surrogate pair. -/
theorem readUnicode_ok {s r : List Char} {c : Char} (h : readUnicode s = .ok (c, r)) :
    (∃ n, readHex s = .ok (n, r)) ∨
      ∃ high low rest, readHex s = .ok (high, '\\' :: 'u' :: rest) ∧
        readHex rest = .ok (low, r) := by
  rw [readUnicode, bind_eq_ok] at h
  obtain ⟨⟨high, rest⟩, hhigh, h⟩ := h
  dsimp only at h
  -- One escape, or a pair of them if the first is a high surrogate.
  split at h
  · cases h
  split at h
  · split at h
    · cases h
    · cases h
    · next rest' =>
      rw [bind_eq_ok] at h
      obtain ⟨⟨low, rest₂⟩, hlow, h⟩ := h
      dsimp only at h
      split at h
      · obtain ⟨-, rfl⟩ := Prod.mk.inj (Except.ok.inj h)
        exact .inr ⟨high, low, rest', hhigh, hlow⟩
      · cases h
    · cases h
    · cases h
  · cases h
    exact .inl ⟨high, hhigh⟩

/-- Escapes by number go by in steps of four digits. -/
theorem length_of_readHex {s r : List Char} {n : Nat} (h : readHex s = .ok (n, r)) :
    r.length + 4 = s.length := by
  obtain ⟨digits, hlength, -, rfl⟩ := readHex_ok h
  rw [List.length_append, hlength, Nat.add_comm]

theorem skipCharsFrom_hex {s r : List Char} {k : Nat} (h : readHex s = .ok (k, r)) (m : Nat) :
    skipCharsFrom (m + 1) ('\\' :: 'u' :: s) = skipCharsFrom m r := by
  obtain ⟨digits, hlength, hdigits, rfl⟩ := readHex_ok h
  exact skipCharsFrom_charText (.number hlength hdigits) m r

/-- A string that can be read is skipped to the same place. -/
theorem skipCharsFrom_of_readCharsFrom {n m : Nat} {acc s cs r : List Char} (hm : s.length < m)
    (h : readCharsFrom n acc s = .ok (cs, r)) : skipCharsFrom m s = .ok r := by
  induction n generalizing m acc s with
  | zero => cases h
  | succ n ih =>
    cases s with
    | nil => cases h
    | cons c s =>
      obtain ⟨m, rfl⟩ : ∃ k, m = k + 1 := ⟨m - 1, by omega⟩
      rw [List.length_cons] at hm
      rw [readCharsFrom.eq_def] at h
      dsimp only at h
      split at h
      · next hquote =>
        subst hquote
        cases h
        rfl
      next hquote =>
      split at h
      · next hslash =>
        subst hslash
        split at h
        · cases h
        · next s' =>
          rw [List.length_cons] at hm
          rw [bind_eq_ok] at h
          obtain ⟨⟨c', s''⟩, hunicode, h⟩ := h
          rcases readUnicode_ok hunicode with ⟨k, hhex⟩ | ⟨high, low, rest, hhigh, hlow⟩
          · have hlength := length_of_readHex hhex
            rw [skipCharsFrom_hex hhex]
            exact ih (by omega) h
          · -- the second half of a pair is another escape for the skipper
            have hlength := length_of_readHex hhigh
            have hlength' := length_of_readHex hlow
            rw [List.length_cons, List.length_cons] at hlength
            obtain ⟨m, rfl⟩ : ∃ k, m = k + 1 := ⟨m - 1, by omega⟩
            rw [skipCharsFrom_hex hhigh, skipCharsFrom_hex hlow]
            exact ih (by omega) h
        · next e s' hu =>
          rw [List.length_cons] at hm
          split at h
          · next c' hshort =>
            have hescape : isShortEscape e = true := by
              rw [isShortEscape, hshort]
              rfl
            have hskip := skipCharsFrom_charText (.short (isShortEscape_iff.mp hescape)) m s'
            exact hskip.trans (ih (by omega) h)
          · cases h
      · next hslash =>
        split at h
        · cases h
        · next hlow =>
          have hskip := skipCharsFrom_charText (.plain hquote hslash (by omega)) m s
          exact hskip.trans (ih (by omega) h)

/-- A string that is read is skipped over the same characters. -/
theorem skipString_of_readString {limit limit' : Nat} {s r : List Char} {text : String}
    (hlimit : s.length ≤ limit') (h : readString limit s = .ok (text, r)) :
    skipString limit' s = .ok r := by
  rw [readString, bind_eq_ok] at h
  obtain ⟨⟨cs, rest⟩, hcs, h⟩ := h
  cases h
  exact skipCharsFrom_of_readCharsFrom (by omega) hcs

/-! ## Numbers -/

namespace Numeral

theorem readWhole_cause {atEnd : Cause} {s : List Char} {x : List Char × List Char}
    (h : readWhole atEnd s = .ok x) (atEnd' : Cause) : readWhole atEnd' s = .ok x := by
  cases s with
  | nil => cases h
  | cons c s => exact h

theorem readFraction_cause {atEnd : Cause} {s : List Char} {x : List Char × List Char}
    (h : readFraction atEnd s = .ok x) (atEnd' : Cause) : readFraction atEnd' s = .ok x := by
  unfold readFraction at h ⊢
  split at h
  · split at h
    · cases h
    · exact h
  · exact h

theorem readPower_cause {atEnd : Cause} {negative : Bool} {s : List Char}
    {x : (Bool × List Char) × List Char} (h : readPower atEnd negative s = .ok x) (atEnd' : Cause) :
    readPower atEnd' negative s = .ok x := by
  cases s with
  | nil => cases h
  | cons c s => exact h

theorem readExponent_cause {atEnd : Cause} {s : List Char} {x : (Bool × List Char) × List Char}
    (h : readExponent atEnd s = .ok x) (atEnd' : Cause) : readExponent atEnd' s = .ok x := by
  rw [readExponent_eq] at h ⊢
  split at h
  · exact readPower_cause h atEnd'
  · exact readPower_cause h atEnd'
  · exact readPower_cause h atEnd'

/-- How a number is read does not depend on its sign, nor on what a text that ends is blamed
for. -/
theorem read_cause {atEnd : Cause} {negative : Bool} {s : List Char} {n : Numeral}
    (h : read atEnd negative s = .ok n) (atEnd' : Cause) (negative' : Bool) :
    read atEnd' negative' s = .ok { n with negative := negative' } := by
  -- The cause and the sign are carried along and never looked at by what succeeds.
  rw [read, bind_eq_ok] at h ⊢
  obtain ⟨⟨whole, s₁⟩, hwhole, h⟩ := h
  refine ⟨(whole, s₁), readWhole_cause hwhole atEnd', ?_⟩
  dsimp only at h ⊢
  rw [bind_eq_ok] at h ⊢
  obtain ⟨⟨fraction, s₂⟩, hfraction, h⟩ := h
  refine ⟨(fraction, s₂), readFraction_cause hfraction atEnd', ?_⟩
  dsimp only at h ⊢
  split at h
  · next c s' =>
    split at h
    · next hletter =>
      rw [bind_eq_ok] at h
      obtain ⟨⟨e, s₃⟩, he, h⟩ := h
      cases h
      dsimp only
      rw [if_pos hletter, readExponent_cause he atEnd']
      rfl
    · next hletter =>
      cases h
      dsimp only
      rw [if_neg hletter]
      rfl
  · cases h
    rfl

end Numeral

/-- A number that is read is a numeral with a value. -/
theorem readMagnitude_ok {negative : Bool} {s r : List Char} {x : Number}
    (h : readMagnitude negative s = .ok (x, r)) :
    ∃ n, Numeral.read .endInValue negative s = .ok n ∧ n.value = .ok x ∧ n.rest = r := by
  rw [readMagnitude, bind_eq_ok] at h
  obtain ⟨n, hread, h⟩ := h
  rw [bind_eq_ok] at h
  obtain ⟨x', hvalue, h⟩ := h
  cases h
  exact ⟨n, hread, hvalue, rfl⟩

/-- A number that can be read is skipped to the same place. -/
theorem skipNumber_of_readNumber {s r : List Char} {x : Number} (h : readNumber s = .ok (x, r)) :
    skipNumber s = .ok r := by
  have hskip : ∀ {negative : Bool} {digits : List Char},
      readMagnitude negative digits = .ok (x, r) → (do
        let t ← Numeral.read .invalidNumber false digits
        pure t.rest) = Except.ok r := by
    intro negative digits hread
    obtain ⟨n, hn, -, rfl⟩ := readMagnitude_ok hread
    rw [Numeral.read_cause hn .invalidNumber false]
    rfl
  cases s with
  | nil => cases h
  | cons c s =>
    by_cases hc : c = '-'
    · subst hc
      exact hskip h
    · rw [readNumber_of_ne hc] at h
      have hdigits : skipNumber (c :: s) = (do
          let t ← Numeral.read .invalidNumber false (c :: s)
          pure t.rest) := by
        simp [skipNumber, hc]
      rw [hdigits]
      exact hskip h

/-! ## Lists and objects -/

theorem skipBlanks_of_skipBlanks_eq {s s' : List Char} {c : Char} (h : skipBlanks s = c :: s') :
    skipBlanks (c :: s') = c :: s' := by
  rw [← h, skipBlanks_skipBlanks]

theorem length_of_skipBlanks {s s' : List Char} {c : Char} (h : skipBlanks s = c :: s') :
    s'.length < s.length := by
  have hle : (skipBlanks s).length ≤ s.length := List.length_dropWhile_le _ _
  rwa [h, List.length_cons] at hle

theorem skipToElement_of_nextElement_done {first : Bool} {s r : List Char}
    (h : nextElement first s = .ok (.done r)) : skipToElement first s = .ok (.done r) := by
  obtain ⟨gap, c, s', hgap, rfl, hnext⟩ := ok_behind_blanks h
  split at hnext
  · next hclose =>
    cases hnext
    rw [hclose]
    exact skipToElement_close hgap first r
  · split at hnext
    · cases hnext
    · split at hnext
      · split at hnext
        · cases hnext
        · split at hnext <;> cases hnext
      · cases hnext

/-- A reader has skipped the blanks in front of an element when a skipper has not. -/
theorem skipToElement_of_nextElement {first : Bool} {s r : List Char}
    (h : nextElement first s = .ok (.item r)) :
    ∃ s', skipToElement first s = .ok (.item s') ∧ skipBlanks s' = r ∧ s'.length ≤ s.length := by
  rw [nextElement] at h
  rw [skipToElement]
  cases hs : skipBlanks s with
  | nil =>
    rw [hs] at h
    cases h
  | cons c s' =>
    rw [hs] at h
    have hs' := length_of_skipBlanks hs
    dsimp only at h ⊢
    split at h
    · cases h
    next hclose =>
    rw [if_neg hclose]
    -- The reader hands on the text behind the blanks, the skipper also the blanks behind a comma.
    cases first with
    | true =>
      cases h
      exact ⟨c :: s', rfl, skipBlanks_of_skipBlanks_eq hs, hs'⟩
    | false =>
      rw [if_neg Bool.false_ne_true] at h ⊢
      split at h
      · next hcomma =>
        rw [if_pos hcomma]
        refine ⟨s', rfl, ?_, by omega⟩
        split at h
        · cases h
        · next d s'' hd =>
          split at h
          · cases h
          · cases h
            exact hd
      · cases h

/-- The skipper finds the same next member as the reader. -/
theorem skipToMember_of_nextMember {first : Bool} {s : List Char} {step : Step}
    (h : nextMember first s = .ok step) : skipToMember first s = .ok step := by
  rw [nextMember] at h
  rw [skipToMember]
  cases hs : skipBlanks s with
  | nil =>
    rw [hs] at h
    cases h
  | cons c s' =>
    rw [hs] at h
    dsimp only at h ⊢
    split at h
    · next hclose =>
      rw [if_pos hclose]
      exact h
    next hclose =>
    rw [if_neg hclose]
    -- Both stop at the quote of the name here, so the steps are equal and not only alike up to
    -- blanks.
    cases first with
    | true =>
      rw [if_pos rfl] at h ⊢
      split at h
      · next hquote =>
        cases h
        rw [hquote, skipToName, skipBlanks_cons rfl]
        rfl
      · cases h
    | false =>
      rw [if_neg Bool.false_ne_true] at h ⊢
      split at h
      · next hcomma =>
        rw [if_pos hcomma, skipToName]
        cases hd : skipBlanks s' with
        | nil =>
          rw [hd] at h
          cases h
        | cons d s'' =>
          rw [hd] at h
          dsimp only at h ⊢
          split at h
          · next hquote =>
            cases h
            rw [if_pos hquote]
            rfl
          · split at h <;> cases h
      · cases h

/-! Names and colons shorten the text. -/

theorem length_of_readColon {s r : List Char} (h : readColon s = .ok r) : r.length < s.length := by
  obtain ⟨gap, -, rfl⟩ := readColon_ok h
  rw [List.length_append, List.length_cons]
  omega

theorem length_of_skipString {limit : Nat} {s r : List Char} (h : skipString limit s = .ok r) :
    r.length < s.length := by
  obtain ⟨chars, -, rfl⟩ := skipCharsFrom_ok h
  rw [List.length_append, List.length_cons]
  omega

theorem length_of_nextMember {first : Bool} {s r : List Char}
    (h : nextMember first s = .ok (.item r)) : r.length < s.length := by
  have hskipped := skipToMember_of_nextMember h
  cases first with
  | true =>
    obtain ⟨gap, -, rfl⟩ := skipToMember_first hskipped
    rw [List.length_append, List.length_cons]
    omega
  | false =>
    obtain ⟨gap, gap', -, -, rfl⟩ := skipToMember_next hskipped
    simp only [List.length_append, List.length_cons]
    omega

/-- The skipper goes as far as the reader, in texts up to a length. -/
def Follows {α : Type} (limit : Nat) (f : List Char → Except Fault (α × List Char))
    (skip : List Char → Except Fault (List Char)) : Prop :=
  ∀ ⦃s a r⦄, s.length ≤ limit → f s = .ok (a, r) → skip s = .ok r

section Items

variable {α : Type} {limit : Nat} {f : List Char → Except Fault (α × List Char)}
  {skip : List Char → Except Fault (List Char)} (hskip : SkipsWellFormed skip)

include hskip

/-- What is skipped is not empty. -/
theorem length_of_skip {s r : List Char} (h : skip s = .ok r) : r.length < s.length := by
  obtain ⟨text, htext, rfl⟩ := hskip h
  have hpos := htext.beginsBehindBlanks.length_pos
  rw [List.length_append]
  omega

variable (hfollows : Follows limit f skip)

include hfollows

/-- The elements of a list, by induction on the reader's repetitions; each element shortens the
text, so that as many repetitions as the text is long are enough for the skipper. -/
theorem skipElements_of_readElements (hblanks : ∀ s, skip (skipBlanks s) = skip s) {n m : Nat}
    {first : Bool} {s r : List Char} {as : List α} (hm : s.length < m) (hlimit : s.length ≤ limit)
    (h : readElements f n first s = .ok (as, r)) : skipElements skip m first s = .ok r := by
  induction n generalizing m first s as with
  | zero => cases h
  | succ n ih =>
    obtain ⟨m, rfl⟩ : ∃ k, m = k + 1 := ⟨m - 1, by omega⟩
    cases as with
    | nil =>
      have hstep := readElements_nil_iff.mp h
      exact skipElements_done (skipToElement_of_nextElement_done hstep) m
    | cons a as =>
      obtain ⟨s', s₁, hstep, hitem, hrest⟩ := readElements_cons_iff.mp h
      obtain ⟨s₀, hskipped, rfl, hle⟩ := skipToElement_of_nextElement hstep
      have hbehind : (skipBlanks s₀).length ≤ s₀.length := List.length_dropWhile_le _ _
      -- The skipper stands before the blanks that the reader has skipped.
      have hone : skip s₀ = .ok s₁ := by
        rw [← hblanks]
        exact hfollows (by omega) hitem
      have hlength := length_of_skip hskip hone
      rw [skipElements_item hskipped hone]
      exact ih (by omega) (by omega) hrest

/-- Members that are read are skipped over the same characters. -/
theorem skipMembers_of_readMembers {n m limit' : Nat} {first : Bool} {s r : List Char}
    {as : List (String × α)} (hm : s.length < m) (hlimit : s.length ≤ limit)
    (h : readMembers limit' f n first s = .ok (as, r)) :
    skipMembers limit skip m first s = .ok r := by
  induction n generalizing m first s as with
  | zero => cases h
  | succ n ih =>
    obtain ⟨m, rfl⟩ : ∃ k, m = k + 1 := ⟨m - 1, by omega⟩
    cases as with
    | nil =>
      have hstep := readMembers_nil_iff.mp h
      exact skipMembers_done (skipToMember_of_nextMember hstep) m
    | cons member as =>
      obtain ⟨key, a⟩ := member
      obtain ⟨s', s₁, s₂, s₃, hstep, hname, hcolon, hvalue, hrest⟩ := readMembers_cons_iff.mp h
      have hmember := length_of_nextMember hstep
      have hkey : skipString limit s' = .ok s₁ := skipString_of_readString (by omega) hname
      have hvalue' : s₂.length < s₁.length := length_of_readColon hcolon
      have hkey' := length_of_skipString hkey
      have hone := hfollows (by omega) hvalue
      have hlength := length_of_skip hskip hone
      rw [skipMembers_item (skipToMember_of_nextMember hstep) hkey hcolon hone]
      exact ih (by omega) (by omega) hrest

end Items

/-! ## Embedded texts -/

theorem readText_ok {expected text : String} {limit : Nat} {s r : List Char}
    (h : readText expected limit s = .ok (text, r)) :
    ∃ s', skipBlanks s = '"' :: s' ∧ readString limit s' = .ok (text, r) := by
  rw [readText] at h
  split at h
  · next s' hs => exact ⟨s', hs, h⟩
  · exact absurd h (refuse_ne_ok _ _ _ _)

/-- An object is taken for an embedded text just if its first member has the reserved name. -/
theorem afterEmbeddingName?_eq_some {limit : Nat} {s r : List Char}
    (h : afterEmbeddingName? limit s = some r) :
    ∃ s', nextMember true s = .ok (.item s') ∧ readString limit s' = .ok (embeddingName, r) := by
  rw [afterEmbeddingName?] at h
  split at h
  · next s' hstep =>
    split at h
    · next name rest hname =>
      split at h
      · next heq =>
        cases h
        exact ⟨s', hstep, heq ▸ hname⟩
      · cases h
    · cases h
  · cases h

/-- An object that ends here has nothing but blanks before its brace. -/
theorem endMembers_ok {s r : List Char} (h : endMembers s = .ok r) :
    ∃ gap, Blanks gap ∧ s = gap ++ '\x7d' :: r := by
  obtain ⟨gap, hgap, hs⟩ := exists_blanks s
  rw [endMembers_eq_ok_iff.mp h] at hs
  exact ⟨gap, hgap, hs⟩

/-- An embedded text is an object with one string for the skipper. -/
theorem skipMembers_of_readEmbedded {parse : String → Except String Value}
    {limit limit' depth m : Nat} {s rest r : List Char} {v : Value} (hm : s.length < m)
    (hlimit : s.length ≤ limit') (hname : afterEmbeddingName? limit s = some rest)
    (h : readEmbedded parse limit rest = .ok (v, r)) :
    skipMembers limit' (skipNested limit' depth) m true s = .ok r := by
  obtain ⟨s₁, hstep, hkey⟩ := afterEmbeddingName?_eq_some hname
  obtain ⟨s₂, text, s₃, hcolon, htext, -, hend⟩ := readEmbedded_eq_ok_iff.mp h
  obtain ⟨s₄, hquote, hstring⟩ := readText_ok htext
  obtain ⟨gap, hgap, rfl⟩ := endMembers_ok hend
  have hmember := length_of_nextMember hstep
  have hname' : skipString limit' s₁ = .ok rest := skipString_of_readString (by omega) hkey
  have hkey' := length_of_skipString hname'
  have hvalue' := length_of_readColon hcolon
  have hquote' := length_of_skipBlanks hquote
  have hvalue : skipNested limit' depth s₂ = .ok (gap ++ '\x7d' :: r) := by
    rw [skipNested_string _ hquote]
    exact skipString_of_readString (by omega) hstring
  -- one repetition for the member, and one that meets the brace
  obtain ⟨m, rfl⟩ : ∃ k, m = k + 2 := ⟨m - 2, by omega⟩
  rw [skipMembers_item (skipToMember_of_nextMember hstep) hname' hcolon hvalue]
  exact skipMembers_done (skipToMember_close hgap false r) m

/-! ## Values -/

/-- **A value that can be read is skipped to the same place**, by a skipper that may go as deep.
By induction on the nesting that is left. -/
theorem skipNested_of_readValueWith (parse : String → Except String Value) {limit limit' : Nat}
    {depth depth' : Nat} (hdepth : depth ≤ depth') :
    Follows limit' (readValueWith parse limit depth) (skipNested limit' depth') := by
  -- Induction on the depth, with one case for each way to read a value; the skipper may have more
  -- of it.
  induction depth using Nat.strongRecOn generalizing depth' with
  | ind depth ih =>
    intro s v r hlimit h
    have hreads := readValueWith_eq_ok_iff.mp h
    generalize hs : skipBlanks s = text at hreads
    cases hreads with
    | null hword => rw [skipNested_null _ hs, hword]
    | true hword => rw [skipNested_true _ hs, hword]
    | false hword => rw [skipNested_false _ hs, hword]
    | string htext =>
      have hlength := length_of_skipBlanks hs
      rw [skipNested_string _ hs]
      exact skipString_of_readString (by omega) htext
    | @array depth _ _ _ hitems =>
      have hlength := length_of_skipBlanks hs
      obtain ⟨depth', rfl⟩ : ∃ d, depth' = d + 1 := ⟨depth' - 1, by omega⟩
      rw [skipNested_array _ hs]
      exact skipElements_of_readElements (skipNested_ok limit' depth')
        (ih depth (Nat.lt_succ_self depth) (by omega)) (skipNested_skipBlanks limit' depth')
        (by omega) (by omega) hitems
    | embedded hname hembedded =>
      have hlength := length_of_skipBlanks hs
      -- An embedded value is read by the other parser, so the skipper sees an object with one
      -- member.
      obtain ⟨depth', rfl⟩ : ∃ d, depth' = d + 1 := ⟨depth' - 1, by omega⟩
      rw [skipNested_object _ hs]
      exact skipMembers_of_readEmbedded (by omega) (by omega) hname hembedded
    | @object depth _ _ _ hname hmembers =>
      have hlength := length_of_skipBlanks hs
      obtain ⟨depth', rfl⟩ : ∃ d, depth' = d + 1 := ⟨depth' - 1, by omega⟩
      rw [skipNested_object _ hs]
      exact skipMembers_of_readMembers (skipNested_ok limit' depth')
        (ih depth (Nat.lt_succ_self depth) (by omega)) (by omega) (by omega) hmembers
    | number hc hn =>
      rw [skipNested_number _ hc hs]
      exact skipNumber_of_readNumber hn

/-- What a skipper leaves behind a well-formed text are blanks. -/
theorem WellFormed.rest_of_skip {text t r : List Char} (h : WellFormed text) (ht : EndsNumber t)
    {limit depth : Nat} (hlimit : text.length ≤ limit) (hdepth : text.length ≤ depth)
    (hskip : skipNested limit depth (text ++ t) = .ok r) : ∃ gap, Blanks gap ∧ r = gap ++ t := by
  obtain ⟨gap, hgap, hpass⟩ := h.passes hlimit hdepth t ht
  rw [hpass] at hskip
  exact ⟨gap, hgap, (Except.ok.inj hskip).symm⟩

/-- **A well-formed text that can be read is read to its end**, up to blanks. -/
theorem WellFormed.rest_of_read {text t r : List Char} (h : WellFormed text) (ht : EndsNumber t)
    {parse : String → Except String Value} {limit depth : Nat} {v : Value}
    (hread : readValueWith parse limit depth (text ++ t) = .ok (v, r)) :
    ∃ gap, Blanks gap ∧ r = gap ++ t := by
  -- deep enough to follow the reader, and to get through the text
  have hskip := skipNested_of_readValueWith parse (Nat.le_max_left depth text.length)
    (Nat.le_refl _) hread
  refine h.rest_of_skip ht ?_ (Nat.le_max_right _ _) hskip
  rw [List.length_append]
  exact Nat.le_add_right _ _

/-! ## Texts without blanks around them -/

theorem Tight.skipBlanks_eq {text : List Char} (h : Tight text) : skipBlanks text = text := by
  cases text with
  | nil => rfl
  | cons c cs => exact skipBlanks_cons (h.head c rfl) cs

/-- A tight text has no blanks at its end. -/
theorem Tight.eq_nil_of_blanks {inner gap : List Char} (h : Tight (inner ++ gap))
    (hgap : Blanks gap) : gap = [] := by
  cases hlast : gap.getLast? with
  | none => exact List.getLast?_eq_none_iff.mp hlast
  | some c =>
    have hmem : c ∈ (inner ++ gap).getLast? := by
      rw [List.getLast?_append, hlast]
      rfl
    have hblank := hgap c (List.mem_of_getLast? hlast)
    rw [h.last c hmem] at hblank
    cases hblank

/-- A skipper gets exactly to the end of a text without blanks at its ends. -/
theorem Tight.skipValue_eq {text : List Char} (htight : Tight text) (h : WellFormed text)
    {limit : Nat} (hlimit : text.length ≤ limit) {t : List Char} (ht : EndsNumber t) :
    skipValue limit (text ++ t) = .ok t := by
  obtain ⟨gap, hgap, hskip⟩ := h.passes hlimit (Nat.le_succ_of_le hlimit) t ht
  obtain ⟨inner, -, heq⟩ := skipNested_ok _ _ hskip
  rw [← List.append_assoc, List.append_left_inj] at heq
  subst heq
  rw [htight.eq_nil_of_blanks hgap] at hskip ⊢
  exact hskip

end WsGateway.Json
