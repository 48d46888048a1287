import WsGateway.Proofs.Json.Extent

/-!
# What a text stands for

Which text has to be written for null, a whole number of 64 bits or a string to be read: the word,
the digits of the number and nothing else (`readNumber_eq_int`), a string that says it (`unquote?`).
The reader has one more way: an object with the embedding name stands for what its text stands for.
`Spells` follows it, however often texts are embedded in one another. Every text that spells a plain
value is read as that (`readsAs_of_spells`), and from no other one is it read (`spells_of_read`).
-/

namespace WsGateway.Json

/-! ## What a string says -/

/-- What a string with its quotes says, and blanks around it. -/
def unquote? (text : List Char) : Option String :=
  (readAll (readText "a string") text).toOption

/-- A text unquotes to a string just if it is one JSON string that reads as it. -/
theorem unquote?_eq_some_iff {text : List Char} {s : String} :
    unquote? text = some s ↔ readAll (readText "a string") text = .ok s := by
  unfold unquote?
  cases readAll (readText "a string") text <;> simp [Except.toOption]

theorem readHex_local {s r : List Char} {n : Nat} (h : readHex s = .ok (n, r)) :
    ∃ digits, digits.length = 4 ∧ s = digits ++ r ∧
      ∀ t, readHex (digits ++ t) = .ok (n, t) := by
  simp only [readHex] at h
  split at h
  · next a b c d rest =>
    split at h
    · next ha hb hc hd =>
      cases h
      refine ⟨[a, b, c, d], rfl, rfl, fun t => ?_⟩
      simp only [List.cons_append, List.nil_append, readHex, ha, hb, hc, hd]
    · cases h
  · cases h

/-- An escape by number is read from its own characters only. -/
theorem readUnicode_local {s r : List Char} {c : Char} (h : readUnicode s = .ok (c, r)) :
    ∃ inner, s = inner ++ r ∧ 0 < inner.length ∧ ∀ t, readUnicode (inner ++ t) = .ok (c, t) := by
  rw [readUnicode, bind_eq_ok] at h
  obtain ⟨⟨high, rest⟩, hhigh, h⟩ := h
  obtain ⟨digits, hlength, rfl, hdigits⟩ := readHex_local hhigh
  dsimp only at h
  -- A lone low surrogate is refused, a high one needs a second escape, and every other number is a
  -- character by itself.
  split at h
  · cases h
  next hlone =>
  split at h
  · next hpair =>
    split at h
    · cases h
    · cases h
    · next rest' =>
      rw [bind_eq_ok] at h
      obtain ⟨⟨low, rest₂⟩, hlow, h⟩ := h
      obtain ⟨digits', hlength', rfl, hdigits'⟩ := readHex_local hlow
      dsimp only at h
      split at h
      · next hsecond =>
        obtain ⟨rfl, rfl⟩ := Prod.mk.inj (Except.ok.inj h)
        refine ⟨digits ++ '\\' :: 'u' :: digits', by simp, ?_, fun t => ?_⟩
        · simp only [List.length_append, List.length_cons]
          omega
        rw [List.append_assoc, readUnicode, hdigits]
        simp only [bind, Except.bind, List.cons_append, if_neg hlone, if_pos hpair, hdigits',
          if_pos hsecond]
      · cases h
    · cases h
    · cases h
  · next hpair =>
    obtain ⟨rfl, rfl⟩ := Prod.mk.inj (Except.ok.inj h)
    refine ⟨digits, rfl, by omega, fun t => ?_⟩
    rw [readUnicode, hdigits]
    simp only [bind, Except.bind, if_neg hlone, if_neg hpair]

/-- The next character of a string, or its end. -/
theorem readCharsFrom_step {n : Nat} {acc s : List Char} {x : List Char × List Char}
    (h : readCharsFrom (n + 1) acc s = .ok x) :
    (∃ r, s = '"' :: r ∧ x = (acc.reverse, r)) ∨
      ∃ chunk c s', s = chunk ++ s' ∧ 0 < chunk.length ∧ readCharsFrom n (c :: acc) s' = .ok x ∧
        ∀ m acc t, readCharsFrom (m + 1) acc (chunk ++ t) = readCharsFrom m (c :: acc) t := by
  cases s with
  | nil => cases h
  | cons c s =>
    rw [readCharsFrom.eq_def] at h
    dsimp only at h
    -- A quote ends the string. Otherwise one round takes a `\u` escape, a short escape or a plain
    -- character.
    split at h
    · next hquote =>
      cases h
      exact .inl ⟨s, by rw [hquote], rfl⟩
    next hquote =>
    right
    split at h
    · next hslash =>
      subst hslash
      split at h
      · cases h
      · next s' =>
        rw [bind_eq_ok] at h
        obtain ⟨⟨e, s''⟩, hunicode, h⟩ := h
        obtain ⟨inner, rfl, hpos, hinner⟩ := readUnicode_local hunicode
        refine ⟨'\\' :: 'u' :: inner, e, s'', rfl, by simp, h, fun m acc t => ?_⟩
        rw [List.cons_append, List.cons_append, readCharsFrom.eq_def]
        simp only [hinner, bind, Except.bind, if_true]
        rw [if_neg (by decide)]
      · next e s' hu =>
        split at h
        · next c' hshort =>
          refine ⟨['\\', e], c', s', rfl, by simp, h, fun m acc t => ?_⟩
          rw [List.cons_append, List.singleton_append, readCharsFrom.eq_def]
          dsimp only
          rw [if_neg (by decide), if_pos rfl]
          split
          · next heq => cases heq
          · next heq =>
            cases heq
            exact (hu rfl).elim
          · next heq =>
            cases heq
            rw [hshort]
        · cases h
    · next hslash =>
      split at h
      · cases h
      · next hlow =>
        refine ⟨[c], c, s, rfl, by simp, h, fun m acc t => ?_⟩
        rw [List.singleton_append, readCharsFrom.eq_def]
        dsimp only
        rw [if_neg hquote, if_neg hslash, if_neg hlow]

/-- **A string is read from its own characters only**, and says no more of them than there are. By
induction on the repetitions, with the characters read so far. -/
theorem readCharsFrom_local {n : Nat} {acc s cs r : List Char}
    (h : readCharsFrom n acc s = .ok (cs, r)) :
    ∃ inner, s = inner ++ r ∧ cs.length < acc.length + inner.length ∧
      ∀ m t, inner.length ≤ m → readCharsFrom m acc (inner ++ t) = .ok (cs, t) := by
  induction n generalizing acc s with
  | zero => cases h
  | succ n ih =>
    rcases readCharsFrom_step h with ⟨r', rfl, heq⟩ | ⟨chunk, c, s', rfl, hpos, hrest, hstep⟩
    · cases heq
      refine ⟨['"'], rfl, by simp, fun m t hm => ?_⟩
      obtain ⟨m, rfl⟩ : ∃ k, m = k + 1 := ⟨m - 1, by rw [List.length_singleton] at hm; omega⟩
      rfl
    · obtain ⟨inner, rfl, hlength, hinner⟩ := ih hrest
      rw [List.length_cons] at hlength
      refine ⟨chunk ++ inner, by rw [List.append_assoc], by rw [List.length_append]; omega, ?_⟩
      intro m t hm
      rw [List.length_append] at hm
      obtain ⟨m, rfl⟩ : ∃ k, m = k + 1 := ⟨m - 1, by omega⟩
      rw [List.append_assoc, hstep]
      exact hinner m t (by omega)

/-- A string is read from its own characters, whatever follows them. -/
theorem readString_local {limit : Nat} {s r : List Char} {name : String}
    (h : readString limit s = .ok (name, r)) :
    ∃ inner, s = inner ++ r ∧ name.toList.length < inner.length ∧
      ∀ limit' t, inner.length ≤ limit' → readString limit' (inner ++ t) = .ok (name, t) := by
  rw [readString, bind_eq_ok] at h
  obtain ⟨⟨cs, rest⟩, hcs, h⟩ := h
  cases h
  obtain ⟨inner, hs, hlength, hinner⟩ := readCharsFrom_local hcs
  refine ⟨inner, hs, ?_, fun limit' t hlimit => ?_⟩
  · rw [String.toList_ofList]
    simpa using hlength
  · rw [readString, hinner (limit' + 1) t (by omega)]
    rfl

/-- What a string that was read somewhere says by itself. -/
theorem unquote?_of_readString {limit : Nat} {s r : List Char} {name : String}
    (h : readString limit s = .ok (name, r)) :
    ∃ inner, s = inner ++ r ∧ ∀ before after, Blanks before → Blanks after →
      unquote? (before ++ '"' :: (inner ++ after)) = some name := by
  obtain ⟨inner, hs, -, hinner⟩ := readString_local h
  refine ⟨inner, hs, fun before after hbefore hafter => ?_⟩
  rw [unquote?_eq_some_iff, readAll_eq_ok_iff]
  refine ⟨after, ?_, readEnd_eq_ok_iff.mpr hafter⟩
  rw [readText, skipBlanks_blanks hbefore, skipBlanks_cons rfl]
  refine hinner _ after ?_
  simp only [List.length_append, List.length_cons]
  omega

/-- Where a string stands in a text that says something. -/
theorem exists_string_of_unquote? {text : List Char} {name : String}
    (h : unquote? text = some name) :
    ∃ before inner after, Blanks before ∧ Blanks after ∧
      text = before ++ '"' :: (inner ++ after) ∧ name.toList.length < inner.length ∧
      ∀ limit t, inner.length ≤ limit → readString limit (inner ++ t) = .ok (name, t) := by
  obtain ⟨after, hread, hend⟩ := readAll_eq_ok_iff.mp (unquote?_eq_some_iff.mp h)
  obtain ⟨s', hquote, hstring⟩ := readText_ok hread
  obtain ⟨before, hbefore, htext⟩ := exists_blanks text
  obtain ⟨inner, rfl, hlength, hinner⟩ := readString_local hstring
  rw [hquote] at htext
  exact ⟨before, inner, after, hbefore, readEnd_eq_ok_iff.mp hend, htext, hlength, hinner⟩

/-- A text that says something is a string, and can be the name of a member. -/
theorem nameText_of_unquote? {text : List Char} {name : String} (h : unquote? text = some name) :
    NameText text := by
  obtain ⟨before, inner, after, hbefore, hafter, rfl, -, hinner⟩ := exists_string_of_unquote? h
  have hskip : skipString (inner ++ []).length (inner ++ []) = .ok [] :=
    skipString_of_readString (Nat.le_refl _) (hinner inner.length [] (Nat.le_refl _))
  obtain ⟨chars, hchars, heq⟩ := skipCharsFrom_ok hskip
  rw [List.append_nil] at heq
  have hname := NameText.intro hbefore (StringText.intro hchars) hafter
  rwa [List.cons_append, ← heq] at hname

/-! ## What a whole number is written as -/

theorem digitChar_of_isDigit {c : Char} (h : c.isDigit = true) :
    c.toNat - '0'.toNat < 10 ∧ (c.toNat - '0'.toNat).digitChar = c := by
  simp only [Char.isDigit, Bool.and_eq_true, decide_eq_true_eq] at h
  have hlow : 48 ≤ c.toNat := h.1
  have hhigh : c.toNat ≤ 57 := h.2
  have hchar : ∀ n < 10, Char.ofNat (48 + n) = n.digitChar := by decide
  have hvalue : '0'.toNat = 48 := rfl
  rw [hvalue]
  have hc := hchar (c.toNat - 48) (by omega)
  rw [Nat.add_sub_cancel' hlow, Char.ofNat_toNat] at hc
  exact ⟨by omega, hc.symm⟩

/-- Digits that do not begin with a zero are those of the number that they spell. By induction from
the end, where the lowest digit stands. -/
theorem toDigits_ofDigitChars {c : Char} {cs : List Char} (hne : c ≠ '0')
    (hdigits : ∀ d ∈ c :: cs, d.isDigit) :
    0 < Nat.ofDigitChars 10 (c :: cs) 0 ∧
      Nat.toDigits 10 (Nat.ofDigitChars 10 (c :: cs) 0) = c :: cs := by
  -- From the right, since the last digit is the remainder by 10. The first digit is not zero, so no
  -- value on the way is either, and no leading zero is lost.
  induction cs using List.reverseRecOn with
  | nil =>
    obtain ⟨hlt, hc⟩ := digitChar_of_isDigit (hdigits c List.mem_cons_self)
    have hvalue : Nat.ofDigitChars 10 [c] 0 = c.toNat - '0'.toNat := by
      rw [Nat.ofDigitChars_cons, Nat.ofDigitChars_nil]
      omega
    rw [hvalue, Nat.toDigits_of_lt_base hlt, hc]
    refine ⟨?_, rfl⟩
    rw [Nat.pos_iff_ne_zero]
    intro hzero
    rw [hzero] at hc
    exact hne hc.symm
  | append_singleton cs d ih =>
    have hinit : ∀ e ∈ c :: cs, e.isDigit := fun e he =>
      hdigits e (by rw [← List.cons_append]; exact List.mem_append_left _ he)
    obtain ⟨hpos, hih⟩ := ih hinit
    obtain ⟨hlt, hd⟩ := digitChar_of_isDigit (hdigits d (by simp))
    have hvalue : Nat.ofDigitChars 10 (c :: (cs ++ [d])) 0 =
        10 * Nat.ofDigitChars 10 (c :: cs) 0 + (d.toNat - '0'.toNat) := by
      rw [← List.cons_append, Nat.ofDigitChars_append, Nat.ofDigitChars_cons, Nat.ofDigitChars_nil]
    rw [hvalue, ← Nat.toDigits_append_toDigits (by decide) hpos hlt, hih,
      Nat.toDigits_of_lt_base hlt, hd]
    exact ⟨by omega, rfl⟩

theorem WholeDigits.toDigits_eq {ds : List Char} (h : WholeDigits ds) :
    Nat.toDigits 10 (Nat.ofDigitChars 10 ds 0) = ds := by
  cases h with
  | zero => rfl
  | nonzero hne hdigits => exact (toDigits_ofDigitChars hne hdigits).2

namespace Numeral

/-- Digits that were all taken in spell the number that came out. -/
theorem accumulate_ok {bound n m : Nat} {ds : List Char} (h : accumulate bound n ds = (m, [])) :
    m = Nat.ofDigitChars 10 ds n := by
  induction ds generalizing n with
  | nil =>
    cases h
    rfl
  | cons d ds ih =>
    simp only [accumulate] at h
    split at h
    · rw [ih h, Nat.ofDigitChars_cons, Nat.mul_comm 10]
    · cases h

/-- A number is exact only if it has neither places nor an exponent. -/
theorem value_eq_int {t : Numeral} {k : Int}
    {fits : -9223372036854775808 ≤ k ∧ k < 18446744073709551616}
    (h : t.value = .ok (.int k fits)) :
    t.fraction = [] ∧ t.exponent = none ∧
      wholeNumber t.negative (Nat.ofDigitChars 10 t.whole 0) = .int k fits := by
  unfold value at h
  cases hacc : accumulate 18446744073709551616 0 t.whole with
  | mk n left =>
    rw [hacc] at h
    dsimp only at h
    split at h
    · next hwhole =>
      obtain ⟨hleft, hfraction, hexponent⟩ := hwhole
      obtain rfl := List.isEmpty_iff.mp hleft
      rw [← accumulate_ok hacc]
      exact ⟨List.isEmpty_iff.mp hfraction, Option.isNone_iff_eq_none.mp hexponent,
        Except.ok.inj h⟩
    · -- every other way gives a floating-point number
      exfalso
      split at h
      · split at h <;> cases h
      · split at h
        · split at h <;> cases h
        · split at h <;> cases h

/-- A whole number that fits is an integer, and a negative zero is not one. -/
theorem wholeNumber_eq_int {negative : Bool} {n : Nat} {k : Int}
    {fits : -9223372036854775808 ≤ k ∧ k < 18446744073709551616}
    (h : wholeNumber negative n = .int k fits) :
    (if negative then -(n : Int) else n) = k ∧ ¬(negative = true ∧ n = 0) := by
  unfold wholeNumber at h
  dsimp only at h
  by_cases hexact : (-9223372036854775808 ≤ (if negative = true then -(n : Int) else n) ∧
      (if negative = true then -(n : Int) else n) < 18446744073709551616) ∧
        ¬(negative = true ∧ n = 0)
  · rw [dif_pos hexact] at h
    exact ⟨Number.int.inj h, hexact.2⟩
  · rw [dif_neg hexact] at h
    simp only [reduceCtorEq] at h

/-- The text of a number that has neither places nor an exponent. -/
theorem read_whole_ok {atEnd : Cause} {negative : Bool} {s : List Char} {n : Numeral}
    (h : read atEnd negative s = .ok n) (hfraction : n.fraction = [])
    (hexponent : n.exponent = none) :
    n.negative = negative ∧ WholeDigits n.whole ∧ s = n.whole ++ n.rest := by
  rw [read, bind_eq_ok] at h
  obtain ⟨⟨whole, s₁⟩, hwhole, h⟩ := h
  dsimp only at h
  rw [bind_eq_ok] at h
  obtain ⟨⟨fraction, s₂⟩, hplaces, h⟩ := h
  obtain ⟨hdigits, rfl⟩ := readWhole_ok hwhole
  obtain ⟨-, rfl⟩ := readFraction_ok hplaces
  dsimp only at h
  split at h
  · split at h
    · rw [bind_eq_ok] at h
      obtain ⟨e, -, h⟩ := h
      cases h
      cases hexponent
    · cases h
      subst hfraction
      exact ⟨rfl, hdigits, rfl⟩
  · cases h
    subst hfraction
    exact ⟨rfl, hdigits, rfl⟩

end Numeral

/-- An integer has one spelling of its magnitude. -/
theorem readMagnitude_eq_int {negative : Bool} {s r : List Char} {k : Int}
    {fits : -9223372036854775808 ≤ k ∧ k < 18446744073709551616}
    (h : readMagnitude negative s = .ok (.int k fits, r)) :
    s = Nat.toDigits 10 k.natAbs ++ r ∧ negative = decide (k < 0) := by
  obtain ⟨n, hread, hvalue, rfl⟩ := readMagnitude_ok h
  obtain ⟨hfraction, hexponent, hwhole⟩ := Numeral.value_eq_int hvalue
  obtain ⟨rfl, hdigits, hs⟩ := Numeral.read_whole_ok hread hfraction hexponent
  obtain ⟨rfl, hzero⟩ := Numeral.wholeNumber_eq_int hwhole
  rw [← hdigits.toDigits_eq] at hs
  cases hsign : n.negative with
  | true =>
    have hpos : Nat.ofDigitChars 10 n.whole 0 ≠ 0 := fun h0 => hzero ⟨hsign, h0⟩
    simp only [if_true, Int.natAbs_neg, Int.natAbs_natCast]
    exact ⟨hs, by rw [eq_comm, decide_eq_true_eq]; omega⟩
  | false =>
    simp only [Bool.false_eq_true, if_false, Int.natAbs_natCast]
    exact ⟨hs, by rw [eq_comm, decide_eq_false_iff_not]; omega⟩

theorem toList_toString_int (k : Int) :
    (toString k).toList = (if k < 0 then ['-'] else []) ++ Nat.toDigits 10 k.natAbs := by
  rw [Text.toList_intText]
  by_cases hk : 0 ≤ k
  · have hnot : ¬ k < 0 := by omega
    have habs : k.toNat = k.natAbs := by omega
    rw [if_pos hk, if_neg hnot, habs, List.nil_append]
  · have hneg : k < 0 := by omega
    have habs : (-k).toNat = k.natAbs := by omega
    rw [if_neg hk, if_pos hneg, habs, List.singleton_append]

/-- **A whole number of 64 bits is written as its decimal text and in no other way**: without
places, exponent, leading zeros or a sign in front of a zero. -/
theorem readNumber_eq_int {s r : List Char} {k : Int}
    {fits : -9223372036854775808 ≤ k ∧ k < 18446744073709551616}
    (h : readNumber s = .ok (.int k fits, r)) : s = (toString k).toList ++ r := by
  rw [toList_toString_int]
  cases s with
  | nil => cases h
  | cons c s =>
    by_cases hc : c = '-'
    · subst hc
      rw [readNumber_minus] at h
      obtain ⟨hs, hsign⟩ := readMagnitude_eq_int h
      rw [hs, if_pos (of_decide_eq_true hsign.symm)]
      rfl
    · rw [readNumber_of_ne hc] at h
      obtain ⟨hs, hsign⟩ := readMagnitude_eq_int h
      rw [hs, if_neg (of_decide_eq_false hsign.symm)]
      rfl

/-! ## Plain values and embedded texts -/

/-- A value that is null, a whole number of 64 bits or a string, and the text of it. -/
inductive Plain : Value → List Char → Prop where
  | null : Plain .null "null".toList
  | int (k : Int) (fits : -9223372036854775808 ≤ k ∧ k < 18446744073709551616) :
      Plain (.number (.int k fits)) (toString k).toList
  | string {text : List Char} {s : String} (h : unquote? text = some s) : Plain (.string s) text

/-- Every string has a text. -/
theorem plain_string (s : String) : ∃ core, Plain (.string s) core := by
  refine ⟨(printString s).toList, .string ?_⟩
  rw [unquote?_eq_some_iff, readAll_eq_ok_iff]
  refine ⟨[], ?_, readEnd_eq_ok_iff.mpr blanks_nil⟩
  rw [toList_printString, readText, skipBlanks_cons rfl]
  refine readString_escaped s ?_ []
  rw [toList_printString]

/-- **A text spells another one**: it is that text, with blanks around it, or an object with the
embedding name and a string that spells it. -/
inductive Spells (core : List Char) : List Char → Prop where
  | self : Spells core core
  | blanks {before text after : List Char} (hbefore : Blanks before) (h : Spells core text)
      (hafter : Blanks after) : Spells core (before ++ (text ++ after))
  | embedded {name value : List Char} {inner : String} (hname : unquote? name = some embeddingName)
      (hvalue : unquote? value = some inner) (h : Spells core inner.toList) :
      Spells core ('\x7b' :: (name ++ ':' :: (value ++ ['\x7d'])))

section Read

variable {parse : String → Except String Value} {limit depth : Nat}

theorem readValueWith_skipBlanks (s : List Char) :
    readValueWith parse limit depth (skipBlanks s) = readValueWith parse limit depth s := by
  rw [readValueWith_eq, skipBlanks_skipBlanks, ← readValueWith_eq]

/-- Blanks around a text make no difference to a reader that skips those in front. -/
theorem ReadsAs.padded {α : Type} {f : List Char → Except Fault (α × List Char)} {a : α}
    {before text after : List Char} (h : ReadsAs f text a) (hf : ∀ s, f (skipBlanks s) = f s)
    (hbefore : Blanks before) (hafter : Blanks after) :
    ReadsAs f (before ++ (text ++ after)) a := by
  intro t ht
  obtain ⟨gap, hgap, hread⟩ := h (after ++ t) (endsNumber_blanks hafter ht)
  refine ⟨gap ++ after, ?_, ?_⟩
  · exact fun c hc => (List.mem_append.mp hc).elim (hgap c) (hafter c)
  · rw [← hf, List.append_assoc, List.append_assoc, skipBlanks_blanks hbefore, hf, hread,
      List.append_assoc]

/-- A plain value is read from its text, at any depth. -/
theorem readsAs_of_plain {v : Value} {core : List Char} (h : Plain v core)
    (hlimit : core.length ≤ limit) : ReadsAs (readValueWith parse limit depth) core v := by
  cases h with
  | null =>
    refine readsAs_of_exact fun t _ => ?_
    show readValueWith parse limit depth ('n' :: 'u' :: 'l' :: 'l' :: t) = _
    rw [readValueWith_null depth (skipBlanks_cons rfl _)]
    rfl
  | int k fits =>
    refine readsAs_of_exact fun t ht => ?_
    exact readValueWith_scalar rfl (Value.wholeNumbers_int k fits) parse hlimit ht
  | string h =>
    obtain ⟨before, inner, after, hbefore, hafter, rfl, -, hinner⟩ := exists_string_of_unquote? h
    simp only [List.length_append, List.length_cons] at hlimit
    refine fun t _ => ⟨after, hafter, ?_⟩
    rw [List.append_assoc, List.cons_append, List.append_assoc, readValueWith_string depth
      ((skipBlanks_blanks hbefore _).trans (skipBlanks_cons rfl _)), hinner limit _ (by omega)]
    rfl

/-- An object with the embedding name is read as its text is parsed. -/
theorem readValueWith_embedded {name value : List Char} {inner : String} {v : Value}
    (hname : unquote? name = some embeddingName) (hvalue : unquote? value = some inner)
    (hparse : parse inner = .ok v) (hlimit : name.length + value.length ≤ limit) (t : List Char) :
    readValueWith parse limit (depth + 1) ('\x7b' :: (name ++ ':' :: (value ++ '\x7d' :: t))) =
      .ok (v, t) := by
  obtain ⟨before, quoted, after, hbefore, hafter, rfl, -, hquoted⟩ :=
    exists_string_of_unquote? hname
  obtain ⟨before', quoted', after', hbefore', hafter', rfl, -, hquoted'⟩ :=
    exists_string_of_unquote? hvalue
  simp only [List.length_append, List.length_cons] at hlimit
  simp only [List.append_assoc, List.cons_append]
  -- One fact for each token: the name, the colon, the text and the brace, each behind its own
  -- blanks.
  have hstep : ∀ s, nextMember true (before ++ '"' :: s) = .ok (.item s) := fun s => by
    rw [nextMember, skipBlanks_blanks hbefore, skipBlanks_cons rfl]
    rfl
  have hcolon : ∀ s, readColon (after ++ ':' :: s) = .ok s := fun s => by
    rw [readColon_eq_ok_iff, skipBlanks_blanks hafter, skipBlanks_cons rfl]
  have htext : readText "raw value" limit (before' ++ '"' :: (quoted' ++ (after' ++ '\x7d' :: t))) =
      .ok (inner, after' ++ '\x7d' :: t) := by
    rw [readText, skipBlanks_blanks hbefore', skipBlanks_cons rfl]
    exact hquoted' limit _ (by omega)
  have hend : endMembers (after' ++ '\x7d' :: t) = .ok t := by
    rw [endMembers_eq_ok_iff, skipBlanks_blanks hafter', skipBlanks_cons rfl]
  rw [readValueWith_object depth (skipBlanks_cons rfl _), afterEmbeddingName?, hstep]
  simp only [hquoted limit _ (by omega), if_true]
  exact readEmbedded_eq_ok_iff.mpr ⟨_, _, _, hcolon _, htext, hparse, hend⟩

end Read

/-- **What spells a plain value is read as it.** By induction on the way in which it is spelled; an
embedded text is shorter than the object around it, so that the length of the text bounds how often
texts are embedded. -/
theorem readsAs_of_spells {v : Value} {core text : List Char} (h : Spells core text)
    (hplain : Plain v core) {fuel limit depth : Nat} (hfuel : text.length ≤ fuel)
    (hlimit : text.length ≤ limit) (hdepth : 0 < depth) :
    ReadsAs (readValueWith (parseEmbedded fuel) limit depth) text v := by
  -- Induction on the spelling. Each level of embedding takes one of the fuel, which is no shorter
  -- than the text.
  induction h generalizing fuel limit depth with
  | self => exact readsAs_of_plain hplain hlimit
  | @blanks before text after hbefore _ hafter ih =>
    simp only [List.length_append] at hfuel hlimit
    have hinner := ih (by omega : text.length ≤ fuel) (by omega : text.length ≤ limit) hdepth
    exact hinner.padded readValueWith_skipBlanks hbefore hafter
  | @embedded name value inner hname hvalue _ ih =>
    refine readsAs_of_exact fun t _ => ?_
    obtain ⟨depth, rfl⟩ : ∃ d, depth = d + 1 := ⟨depth - 1, by omega⟩
    simp only [List.length_append, List.length_cons] at hfuel hlimit
    obtain ⟨fuel, rfl⟩ : ∃ n, fuel = n + 1 := ⟨fuel - 1, by omega⟩
    have hparse : parseEmbedded (fuel + 1) inner = .ok v := by
      obtain ⟨before, quoted, after, -, -, heq, hlength, -⟩ := exists_string_of_unquote? hvalue
      have hquoted := congrArg List.length heq
      simp only [List.length_append, List.length_cons] at hquoted
      have hinner := ih (by omega : inner.toList.length ≤ fuel) (Nat.le_refl _)
        (by decide : 0 < maxDepth)
      obtain ⟨gap, hgap, hread⟩ := hinner [] endsNumber_nil
      rw [List.append_nil, List.append_nil] at hread
      rw [parseEmbedded, readAll_eq_ok_iff.mpr ⟨gap, hread, readEnd_eq_ok_iff.mpr hgap⟩]
    simp only [List.cons_append, List.append_assoc, List.nil_append]
    exact readValueWith_embedded hname hvalue hparse (by omega) t

/-- An embedded text that was read, as a text of its own. -/
theorem embedded_of_read {parse : String → Except String Value} {limit : Nat} {s rest r : List Char}
    {v : Value} (hname : afterEmbeddingName? limit s = some rest)
    (h : readEmbedded parse limit rest = .ok (v, r)) :
    ∃ name value inner, unquote? name = some embeddingName ∧ unquote? value = some inner ∧
      parse inner = .ok v ∧ s = name ++ ':' :: (value ++ '\x7d' :: r) := by
  obtain ⟨s₁, hstep, hkey⟩ := afterEmbeddingName?_eq_some hname
  obtain ⟨s₂, inner, s₃, hcolon, htext, hparse, hend⟩ := readEmbedded_eq_ok_iff.mp h
  obtain ⟨s₄, hquote, hstring⟩ := readText_ok htext
  -- From here the text is put together again from what each reader took.
  obtain ⟨before, hbefore, rfl⟩ := skipToMember_first (skipToMember_of_nextMember hstep)
  obtain ⟨quoted, rfl, hquoted⟩ := unquote?_of_readString hkey
  obtain ⟨after, hafter, rfl⟩ := readColon_ok hcolon
  obtain ⟨before', hbefore', heq⟩ := exists_blanks s₂
  rw [hquote] at heq
  obtain ⟨quoted', rfl, hquoted'⟩ := unquote?_of_readString hstring
  obtain ⟨after', hafter', rfl⟩ := endMembers_ok hend
  refine ⟨before ++ '"' :: (quoted ++ after), before' ++ '"' :: (quoted' ++ after'), inner,
    hquoted before after hbefore hafter, hquoted' before' after' hbefore' hafter', hparse, ?_⟩
  rw [heq]
  simp only [List.append_assoc, List.cons_append]

/-- **A plain value is read only from what spells it.** By induction on how often texts may be
embedded in one another. -/
theorem spells_of_read {fuel limit depth : Nat} {s r : List Char} {v : Value}
    (h : readValueWith (parseEmbedded fuel) limit depth s = .ok (v, r))
    (hplain : ∃ core, Plain v core) :
    ∃ text core, s = text ++ r ∧ Plain v core ∧ Spells core text := by
  induction fuel using Nat.strongRecOn generalizing limit depth s r with
  | ind fuel ih =>
    obtain ⟨gap, hgap, hs⟩ := exists_blanks s
    -- the blanks in front belong to the text
    suffices hvalue : ∃ text core, skipBlanks s = text ++ r ∧ Plain v core ∧ Spells core text by
      obtain ⟨text, core, heq, hcore, hspells⟩ := hvalue
      refine ⟨gap ++ (text ++ []), core, ?_, hcore, .blanks hgap hspells blanks_nil⟩
      rw [List.append_nil, List.append_assoc, ← heq]
      exact hs
    have hreads := readValueWith_eq_ok_iff.mp h
    generalize skipBlanks s = behind at hreads
    cases hreads with
    | null hword =>
      exact ⟨_, _, congrArg ('n' :: ·) (readWord_eq_ok_iff.mp hword), .null, .self⟩
    | string htext =>
      obtain ⟨quoted, rfl, hquoted⟩ := unquote?_of_readString htext
      have hcore := hquoted [] [] blanks_nil blanks_nil
      rw [List.append_nil] at hcore
      exact ⟨_, _, rfl, .string hcore, .self⟩
    | number _ hn =>
      obtain ⟨core, hcore⟩ := hplain
      cases hcore with
      | int k fits => exact ⟨_, _, readNumber_eq_int hn, .int k fits, .self⟩
    | embedded hname hembedded =>
      obtain ⟨name, value, inner, hkey, hvalue, hparse, rfl⟩ := embedded_of_read hname hembedded
      cases fuel with
      | zero => cases hparse
      | succ fuel =>
        rw [parseEmbedded] at hparse
        split at hparse
        · next v' hall =>
          cases hparse
          obtain ⟨after, hread, hend⟩ := readAll_eq_ok_iff.mp hall
          obtain ⟨text, core, heq, hcore, hspells⟩ := ih fuel (Nat.lt_succ_self fuel) hread
          have hinner : Spells core inner.toList := by
            rw [heq]
            exact .blanks blanks_nil hspells (readEnd_eq_ok_iff.mp hend)
          exact ⟨_, core, by simp, hcore, .embedded hkey hvalue hinner⟩
        · cases hparse
    -- the other values are not plain
    | true | false | array | object =>
      obtain ⟨core, hcore⟩ := hplain
      cases hcore

end WsGateway.Json
