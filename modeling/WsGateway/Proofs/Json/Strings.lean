import WsGateway.Json.Skip

/-!
# Printed strings

A string that was printed is read back and skipped whole, whatever follows it (`readString_escaped`,
`skipString_escaped`). Both are inductions on the characters of the string, whose step is about one
character: what stands for it is one of the short escapes, an escape by number, or the character
itself.
-/

namespace WsGateway.Json

def escaped (cs : List Char) : List Char := cs.flatMap fun c => (escapedChar c).toList

/-- A string is printed as its escaped characters between quotes. -/
theorem toList_printString (s : String) :
    (printString s).toList = '"' :: (escaped s.toList ++ ['"']) := by
  have hquote : "\"".toList = ['"'] := rfl
  simp only [printString, escaped, String.toList_append, String.toList_join, hquote,
    List.flatMap_map, List.cons_append, List.nil_append]

/-! ## One character -/

/-- Control characters without a short escape are escaped by their number. -/
theorem escapedChar_control : ∀ n < 32, n ∉ [8, 9, 10, 12, 13] →
    (escapedChar (Char.ofNat n)).toList =
      ['\\', 'u', '0', '0', (n / 16).digitChar, (n % 16).digitChar] := by
  decide +kernel

theorem hexValue?_digitChar : ∀ d < 16, Text.hexValue? d.digitChar = some d := by
  decide +kernel

theorem readHex_control {n : Nat} (hn : n < 256) (rest : List Char) :
    readHex ('0' :: '0' :: (n / 16).digitChar :: (n % 16).digitChar :: rest) = .ok (n, rest) := by
  have hzero : Text.hexValue? '0' = some 0 := rfl
  have hhigh := hexValue?_digitChar (n / 16) (by omega)
  have hlow := hexValue?_digitChar (n % 16) (by omega)
  have hsum : ((0 * 16 + 0) * 16 + n / 16) * 16 + n % 16 = n := by omega
  simp only [readHex, hzero, hhigh, hlow, hsum]

theorem readUnicode_control {n : Nat} (hn : n < 256) (rest : List Char) :
    readUnicode ('0' :: '0' :: (n / 16).digitChar :: (n % 16).digitChar :: rest) =
      .ok (Char.ofNat n, rest) := by
  simp only [readUnicode, readHex_control hn, bind, Except.bind]
  rw [if_neg (by omega), if_neg (by omega)]

/-- What can stand for a character: a short escape, an escape by number, or itself. -/
theorem escapedChar_cases (c : Char) :
    (∃ e, e ≠ 'u' ∧ shortEscape? e = some c ∧ (escapedChar c).toList = ['\\', e]) ∨
    (∃ n < 32, c = Char.ofNat n ∧ (escapedChar c).toList =
      ['\\', 'u', '0', '0', (n / 16).digitChar, (n % 16).digitChar]) ∨
    (c ≠ '"' ∧ c ≠ '\\' ∧ 32 ≤ c.toNat ∧ (escapedChar c).toList = [c]) := by
  by_cases hlow : c.toNat < 32
  · have hc : c = Char.ofNat c.toNat := (Char.ofNat_toNat c).symm
    by_cases hmem : c.toNat ∈ [8, 9, 10, 12, 13]
    · left
      simp only [List.mem_cons, List.not_mem_nil, or_false] at hmem
      rcases hmem with h | h | h | h | h <;> rw [h] at hc <;> subst hc
      · exact ⟨'b', by decide, rfl, rfl⟩
      · exact ⟨'t', by decide, rfl, rfl⟩
      · exact ⟨'n', by decide, rfl, rfl⟩
      · exact ⟨'f', by decide, rfl, rfl⟩
      · exact ⟨'r', by decide, rfl, rfl⟩
    · refine Or.inr (Or.inl ⟨c.toNat, hlow, hc, ?_⟩)
      have hcontrol := escapedChar_control c.toNat hlow hmem
      rwa [← hc] at hcontrol
  · by_cases hquote : c = '"'
    · subst hquote
      exact Or.inl ⟨'"', by decide, rfl, rfl⟩
    by_cases hslash : c = '\\'
    · subst hslash
      exact Or.inl ⟨'\\', by decide, rfl, rfl⟩
    refine Or.inr (Or.inr ⟨hquote, hslash, by omega, ?_⟩)
    -- no short escape and no control character, so it stands for itself
    have hplain : escapedChar c = c.toString := by
      simp only [escapedChar]
      split
      · exact absurd rfl hquote
      · exact absurd rfl hslash
      · exact absurd (by decide) hlow
      · exact absurd (by decide) hlow
      · exact absurd (by decide) hlow
      · rw [if_neg (by omega), if_neg (by omega), if_neg (by omega), if_neg hlow]
    rw [hplain]
    exact String.toList_singleton c

/-- An escaped character is read back in one round. -/
theorem readCharsFrom_escapedChar (n : Nat) (acc rest : List Char) (c : Char) :
    readCharsFrom (n + 1) acc ((escapedChar c).toList ++ rest) =
      readCharsFrom n (c :: acc) rest := by
  rcases escapedChar_cases c with ⟨e, hu, he, heq⟩ | ⟨m, hm, hc, heq⟩ | ⟨hquote, hslash, hlow, heq⟩
  · rw [heq]
    simp only [List.cons_append, List.nil_append, readCharsFrom, if_true]
    rw [if_neg (by decide)]
    simp [he]
  · rw [heq]
    simp only [List.cons_append, List.nil_append, readCharsFrom, if_true]
    rw [if_neg (by decide), readUnicode_control (by omega), hc]
    rfl
  · rw [heq]
    simp only [List.cons_append, List.nil_append, readCharsFrom]
    rw [if_neg hquote, if_neg hslash, if_neg (by omega)]

theorem skipCharsFrom_escapedChar (n : Nat) (rest : List Char) (c : Char) :
    skipCharsFrom (n + 1) ((escapedChar c).toList ++ rest) = skipCharsFrom n rest := by
  rcases escapedChar_cases c with ⟨e, hu, he, heq⟩ | ⟨m, hm, -, heq⟩ | ⟨hquote, hslash, hlow, heq⟩
  · rw [heq]
    simp only [List.cons_append, List.nil_append, skipCharsFrom, if_true]
    rw [if_neg (by decide)]
    simp [isShortEscape, he]
  · rw [heq]
    simp only [List.cons_append, List.nil_append, skipCharsFrom, if_true]
    rw [if_neg (by decide), readHex_control (by omega)]
    rfl
  · rw [heq]
    simp only [List.cons_append, List.nil_append, skipCharsFrom]
    rw [if_neg hquote, if_neg hslash, if_neg (by omega)]

/-! ## Whole strings -/

/-- Escaped characters are read back, up to the quote. -/
theorem readCharsFrom_escaped (cs : List Char) {n : Nat} (hn : cs.length < n)
    (acc rest : List Char) :
    readCharsFrom n acc (escaped cs ++ '"' :: rest) = .ok (acc.reverse ++ cs, rest) := by
  obtain ⟨n, rfl⟩ : ∃ m, n = m + 1 := ⟨n - 1, by omega⟩
  induction cs generalizing n acc with
  | nil => simp [escaped, readCharsFrom]
  | cons c cs ih =>
    have hcons : escaped (c :: cs) = (escapedChar c).toList ++ escaped cs := rfl
    obtain ⟨n, rfl⟩ : ∃ m, n = m + 1 := ⟨n - 1, by rw [List.length_cons] at hn; omega⟩
    rw [hcons, List.append_assoc, readCharsFrom_escapedChar, ih (c :: acc)]
    · simp
    · rw [List.length_cons] at hn
      omega

/-- Escaped characters are skipped, up to the quote. -/
theorem skipCharsFrom_escaped (cs : List Char) {n : Nat} (hn : cs.length < n)
    (rest : List Char) : skipCharsFrom n (escaped cs ++ '"' :: rest) = .ok rest := by
  obtain ⟨n, rfl⟩ : ∃ m, n = m + 1 := ⟨n - 1, by omega⟩
  induction cs generalizing n with
  | nil => simp [escaped, skipCharsFrom]
  | cons c cs ih =>
    have hcons : escaped (c :: cs) = (escapedChar c).toList ++ escaped cs := rfl
    obtain ⟨n, rfl⟩ : ∃ m, n = m + 1 := ⟨n - 1, by rw [List.length_cons] at hn; omega⟩
    rw [hcons, List.append_assoc, skipCharsFrom_escapedChar, ih]
    rw [List.length_cons] at hn
    omega

/-- A printed string is at least as long as the text that it stands for. -/
theorem length_le_length_escaped (cs : List Char) : cs.length ≤ (escaped cs).length := by
  induction cs with
  | nil => simp
  | cons c cs ih =>
    have hcons : escaped (c :: cs) = (escapedChar c).toList ++ escaped cs := rfl
    have hpos : 0 < (escapedChar c).toList.length := by
      rcases escapedChar_cases c with ⟨_, _, _, h⟩ | ⟨_, _, _, h⟩ | ⟨_, _, _, h⟩ <;> simp [h]
    rw [hcons, List.length_append, List.length_cons]
    omega

/-- **A printed string is read back**, from behind its opening quote and whatever follows. -/
theorem readString_escaped (s : String) {limit : Nat}
    (hlimit : (printString s).toList.length ≤ limit) (rest : List Char) :
    readString limit (escaped s.toList ++ '"' :: rest) = .ok (s, rest) := by
  have hlength := length_le_length_escaped s.toList
  rw [toList_printString, List.length_cons, List.length_append] at hlimit
  rw [readString, readCharsFrom_escaped s.toList (by omega)]
  simp [bind, Except.bind, pure, Except.pure, String.ofList_toList]

/-- A printed string is skipped. -/
theorem skipString_escaped (s : String) {limit : Nat}
    (hlimit : (printString s).toList.length ≤ limit) (rest : List Char) :
    skipString limit (escaped s.toList ++ '"' :: rest) = .ok rest := by
  have hlength := length_le_length_escaped s.toList
  rw [toList_printString, List.length_cons, List.length_append] at hlimit
  exact skipCharsFrom_escaped s.toList (by omega) rest

end WsGateway.Json
