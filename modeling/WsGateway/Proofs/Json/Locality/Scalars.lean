import WsGateway.Proofs.Json.Inversion
import WsGateway.Proofs.Json.Numerals

/-!
# Reading scalars does not look ahead

What a reader found in a text it finds again when more text follows and when it may repeat itself
more often (`Extends`): it looks at nothing behind what it reads, except that a number must not go
on. Here this is shown for words, strings (`readString_append`) and numbers (`readNumber_append`).
-/

namespace WsGateway.Json

/-- What `f` finds in a text, `g` finds in front of `t`. -/
def Extends {α : Type} (t : List Char) (f g : List Char → Except Fault (α × List Char)) : Prop :=
  ∀ ⦃s a r⦄, f s = .ok (a, r) → g (s ++ t) = .ok (a, r ++ t)

/-! ## Blanks and words -/

theorem skipBlanks_append {s s' : List Char} {c : Char} (h : skipBlanks s = c :: s')
    (t : List Char) : skipBlanks (s ++ t) = c :: (s' ++ t) := by
  rw [skipBlanks] at h
  rw [skipBlanks, List.dropWhile_append, h]
  rfl

theorem readWord_append {w s r : List Char} (h : readWord w s = .ok r) (t : List Char) :
    readWord w (s ++ t) = .ok (r ++ t) := by
  rw [readWord_eq_ok_iff] at h ⊢
  rw [h, List.append_assoc]

/-! ## Strings -/

theorem readHex_append {s r : List Char} {n : Nat} (h : readHex s = .ok (n, r)) (t : List Char) :
    readHex (s ++ t) = .ok (n, r ++ t) := by
  simp only [readHex] at h
  split at h
  · split at h
    · next h1 h2 h3 h4 =>
      cases h
      simp only [List.cons_append, readHex, h1, h2, h3, h4]
    · cases h
  · cases h

/-- An escaped code point is read alike with more behind it, also one of two escapes. -/
theorem readUnicode_append {s r : List Char} {c : Char} (h : readUnicode s = .ok (c, r))
    (t : List Char) : readUnicode (s ++ t) = .ok (c, r ++ t) := by
  rw [readUnicode, bind_eq_ok] at h
  obtain ⟨⟨high, s'⟩, hhigh, h⟩ := h
  rw [readUnicode, readHex_append hhigh]
  simp only [bind, Except.bind] at h ⊢
  split at h
  · cases h
  · next hlow =>
    rw [if_neg hlow]
    split at h
    · next hpair =>
      rw [if_pos hpair]
      split at h
      · cases h
      · cases h
      · next s₂ =>
        -- a second escape follows, and completes the pair
        cases hlow₂ : readHex s₂ with
        | error fault =>
          rw [hlow₂] at h
          cases h
        | ok low =>
          rw [hlow₂] at h
          simp only [List.cons_append, readHex_append hlow₂]
          simp only at h
          split at h
          · next hsecond =>
            rw [if_pos hsecond]
            obtain ⟨rfl, rfl⟩ := Prod.mk.inj (Except.ok.inj h)
            rfl
          · cases h
      · cases h
      · cases h
    · next hpair =>
      rw [if_neg hpair]
      cases h
      rfl

theorem readCharsFrom_append {n m : Nat} (hn : n ≤ m) {acc s cs r : List Char}
    (h : readCharsFrom n acc s = .ok (cs, r)) (t : List Char) :
    readCharsFrom m acc (s ++ t) = .ok (cs, r ++ t) := by
  induction n generalizing m acc s with
  | zero => cases h
  | succ n ih =>
    obtain ⟨m, rfl⟩ : ∃ k, m = k + 1 := ⟨m - 1, by omega⟩
    have hm : n ≤ m := by omega
    cases s with
    | nil => cases h
    | cons c s =>
      simp only [List.cons_append, readCharsFrom] at h ⊢
      -- the string ends, a character is escaped, or it stands for itself
      by_cases hquote : c = '"'
      · rw [if_pos hquote] at h ⊢
        cases h
        rfl
      rw [if_neg hquote] at h ⊢
      by_cases hslash : c = '\\'
      · rw [if_pos hslash] at h ⊢
        split at h
        · cases h
        · next s' =>
          rw [bind_eq_ok] at h
          obtain ⟨⟨e, s''⟩, he, h⟩ := h
          simp only [List.cons_append, readUnicode_append he]
          exact ih hm h
        · next e s' hu =>
          rw [List.cons_append]
          split at h
          · next e' he =>
            simp only [he]
            exact ih hm h
          · cases h
      · rw [if_neg hslash] at h ⊢
        split at h
        · cases h
        · next hlow =>
          rw [if_neg hlow]
          exact ih hm h

/-- A string is read alike with more behind it. -/
theorem readString_append {limit limit' : Nat} (hlimit : limit ≤ limit') (t : List Char) :
    Extends t (readString limit) (readString limit') := by
  intro s a r h
  rw [readString, bind_eq_ok] at h
  obtain ⟨⟨cs, rest⟩, hcs, h⟩ := h
  cases h
  rw [readString, readCharsFrom_append (by omega) hcs]
  rfl

/-! ## Numbers -/

namespace Numeral

variable {t : List Char}

theorem spanDigits_append_of_ends (ht : EndsNumber t) (s : List Char) :
    spanDigits (s ++ t) = ((spanDigits s).1, (spanDigits s).2 ++ t) := by
  have hsplit : s ++ t =
      s.takeWhile Char.isDigit ++ (s.dropWhile Char.isDigit ++ t) := by
    rw [← List.append_assoc, List.takeWhile_append_dropWhile]
  rw [hsplit]
  refine spanDigits_append (fun c hc => List.all_eq_true.mp List.all_takeWhile c hc) ?_
  intro c hc
  cases hdrop : s.dropWhile Char.isDigit with
  | nil =>
    rw [hdrop] at hc
    exact (ht c hc).1
  | cons d ds =>
    rw [hdrop] at hc
    obtain rfl : d = c := Option.some.inj hc
    have hhead := List.head_dropWhile_not Char.isDigit (l := s) (by simp [hdrop])
    simpa [hdrop] using hhead

theorem readWhole_append_of_ok (ht : EndsNumber t) {atEnd : Cause} {s ds r : List Char}
    (h : readWhole atEnd s = .ok (ds, r)) : readWhole atEnd (s ++ t) = .ok (ds, r ++ t) := by
  cases s with
  | nil => cases h
  | cons c s =>
    simp only [List.cons_append, readWhole] at h ⊢
    by_cases hzero : c = '0'
    · rw [if_pos hzero] at h ⊢
      cases s with
      | nil =>
        cases h
        -- a zero stands at the end, and what follows must not be a digit
        cases t with
        | nil => rfl
        | cons d t =>
          have hd : d.isDigit = false := (ht d rfl).1
          simp [hd]
      | cons d s =>
        simp only [List.cons_append] at h ⊢
        split at h
        · cases h
        · next hd =>
          rw [if_neg hd]
          cases h
          rfl
    · rw [if_neg hzero] at h ⊢
      split at h
      · next hc =>
        rw [if_pos hc, ← List.cons_append, spanDigits_append_of_ends ht]
        rw [Except.ok.inj h]
      · cases h

theorem readFraction_append_of_ok (ht : EndsNumber t) {atEnd : Cause} {s ds r : List Char}
    (h : readFraction atEnd s = .ok (ds, r)) :
    readFraction atEnd (s ++ t) = .ok (ds, r ++ t) := by
  cases s with
  | nil =>
    cases h
    -- At the end of the text it is `t` that must not go on with a point.
    cases t with
    | nil => rfl
    | cons c t => exact readFraction_of_ne (ht c rfl).2.1 atEnd t
  | cons c s =>
    by_cases hpoint : c = '.'
    · subst hpoint
      cases s with
      | nil => cases h
      | cons d s =>
        simp only [List.cons_append, readFraction] at h ⊢
        split at h
        · next hd =>
          rw [if_pos hd, ← List.cons_append, spanDigits_append_of_ends ht]
          rw [Except.ok.inj h]
        · cases h
    · rw [readFraction_of_ne hpoint] at h
      cases h
      exact readFraction_of_ne hpoint atEnd (s ++ t)

/-- An exponent behind its sign. -/
def readPower (atEnd : Cause) (negative : Bool) (s : List Char) :
    Except Fault ((Bool × List Char) × List Char) :=
  match s with
  | [] => .error (.here atEnd [])
  | c :: _ =>
    if c.isDigit then .ok ((negative, (spanDigits s).1), (spanDigits s).2)
    else .error (.next .invalidNumber s)

theorem readExponent_eq (atEnd : Cause) (s : List Char) :
    readExponent atEnd s = match s with
      | '+' :: s => readPower atEnd false s
      | '-' :: s => readPower atEnd true s
      | s => readPower atEnd false s := by
  cases s with
  | nil => rfl
  | cons c s =>
    by_cases hplus : c = '+'
    · subst hplus
      rfl
    by_cases hminus : c = '-'
    · subst hminus
      rfl
    simp only [readExponent]
    simp [readPower, hplus, hminus]

theorem readPower_append_of_ok (ht : EndsNumber t) {atEnd : Cause} {negative : Bool}
    {s r : List Char} {e : Bool × List Char} (h : readPower atEnd negative s = .ok (e, r)) :
    readPower atEnd negative (s ++ t) = .ok (e, r ++ t) := by
  cases s with
  | nil => cases h
  | cons c s =>
    rw [List.cons_append]
    simp only [readPower] at h ⊢
    split at h
    · next hc =>
      rw [if_pos hc, ← List.cons_append, spanDigits_append_of_ends ht]
      cases h
      rfl
    · cases h

theorem readExponent_append_of_ok (ht : EndsNumber t) {atEnd : Cause} {s r : List Char}
    {e : Bool × List Char} (h : readExponent atEnd s = .ok (e, r)) :
    readExponent atEnd (s ++ t) = .ok (e, r ++ t) := by
  rw [readExponent_eq] at h ⊢
  split at h
  · exact readPower_append_of_ok ht h
  · exact readPower_append_of_ok ht h
  · next hplus hminus =>
    cases s with
    | nil => cases h
    | cons c s =>
      have hc : c ≠ '+' ∧ c ≠ '-' :=
        ⟨fun heq => hplus s (by rw [heq]), fun heq => hminus s (by rw [heq])⟩
      simp only [List.cons_append]
      split
      · next heq => exact absurd (List.cons.inj heq).1 hc.1
      · next heq => exact absurd (List.cons.inj heq).1 hc.2
      · exact readPower_append_of_ok ht h

/-- A numeral is read alike with more behind it that ends a number. -/
theorem read_append_of_ok (ht : EndsNumber t) {atEnd : Cause} {negative : Bool} {s : List Char}
    {n : Numeral} (h : read atEnd negative s = .ok n) :
    read atEnd negative (s ++ t) = .ok { n with rest := n.rest ++ t } := by
  rw [read, bind_eq_ok] at h ⊢
  obtain ⟨⟨whole, s₁⟩, hwhole, h⟩ := h
  refine ⟨_, readWhole_append_of_ok ht hwhole, ?_⟩
  simp only [bind_eq_ok] at h ⊢
  obtain ⟨⟨fraction, s₂⟩, hfraction, h⟩ := h
  refine ⟨_, readFraction_append_of_ok ht hfraction, ?_⟩
  cases s₂ with
  | nil =>
    cases h
    -- the number ended with the text, and what follows is no exponent
    cases t with
    | nil => rfl
    | cons c t =>
      obtain ⟨-, -, he, hE⟩ := ht c rfl
      simp [he, hE, pure, Except.pure]
  | cons c s₂ =>
    simp only [List.cons_append] at h ⊢
    split at h
    · next hletter =>
      rw [if_pos hletter]
      simp only [bind_eq_ok] at h ⊢
      obtain ⟨⟨exponent, s₃⟩, hexponent, h⟩ := h
      refine ⟨_, readExponent_append_of_ok ht hexponent, ?_⟩
      cases h
      rfl
    · next hletter =>
      rw [if_neg hletter]
      cases h
      rfl

/-- What follows a number does not count for its value. -/
theorem value_of_rest {n : Numeral} {x : Number} (h : n.value = .ok x) (rest : List Char) :
    ({ n with rest := rest } : Numeral).value = .ok x := by
  unfold value at h ⊢
  generalize accumulate 18446744073709551616 0 n.whole = whole at h ⊢
  obtain ⟨m, left⟩ := whole
  dsimp only at h ⊢
  split at h
  · next hwhole =>
    rw [if_pos hwhole]
    exact h
  · next hwhole =>
    rw [if_neg hwhole]
    generalize accumulate 18446744073709551616 m n.fraction = all at h ⊢
    obtain ⟨m, ignored⟩ := all
    -- only the fault of a number that is too great tells what follows it
    cases hexponent : n.exponent with
    | none =>
      rw [hexponent] at h
      dsimp only at h ⊢
      split at h
      · exact h
      · cases h
    | some e =>
      rw [hexponent] at h
      obtain ⟨down, digits⟩ := e
      dsimp only at h ⊢
      generalize accumulate 2147483648 0 digits = power at h ⊢
      obtain ⟨e, excess⟩ := power
      cases excess with
      | nil =>
        dsimp only at h ⊢
        split at h
        · exact h
        · cases h
      | cons d after =>
        dsimp only at h ⊢
        split at h
        · cases h
        · next hgreat =>
          rw [if_neg hgreat]
          exact h

end Numeral

/-- A number behind its sign. -/
def readMagnitude (negative : Bool) (s : List Char) : Except Fault (Number × List Char) := do
  let t ← Numeral.read .endInValue negative s
  let n ← t.value
  pure (n, t.rest)

theorem readNumber_minus (s : List Char) : readNumber ('-' :: s) = readMagnitude true s := rfl

theorem readNumber_of_ne {c : Char} (hc : c ≠ '-') (s : List Char) :
    readNumber (c :: s) = readMagnitude false (c :: s) := by
  simp [readNumber, readMagnitude, hc]

theorem readMagnitude_append {t : List Char} (ht : EndsNumber t) (negative : Bool) :
    Extends t (readMagnitude negative) (readMagnitude negative) := by
  intro s a r h
  rw [readMagnitude, bind_eq_ok] at h
  obtain ⟨n, hread, h⟩ := h
  rw [bind_eq_ok] at h
  obtain ⟨x, hvalue, h⟩ := h
  cases h
  rw [readMagnitude, Numeral.read_append_of_ok ht hread]
  simp only [bind, Except.bind, Numeral.value_of_rest hvalue]
  rfl

/-- A number is read alike with more behind it that ends a number. -/
theorem readNumber_append {t : List Char} (ht : EndsNumber t) :
    Extends t readNumber readNumber := by
  intro s a r h
  cases s with
  | nil => cases h
  | cons c s =>
    rw [List.cons_append]
    by_cases hminus : c = '-'
    · subst hminus
      rw [readNumber_minus] at h ⊢
      exact readMagnitude_append ht true h
    · rw [readNumber_of_ne hminus] at h ⊢
      exact readMagnitude_append ht false h

end WsGateway.Json
