import WsGateway.Text.Base64
import WsGateway.Text.Blank

/-!
# Base64 has one spelling

Reading base64 accepts just what writing gives (`ofBase64?_eq_some_iff`), so that every octet string
has one spelling and a text spells at most one: there is no spelling without its padding, none
with unused bits that are set, and none with anything behind the padding.

Digits come first: those of the alphabet stand for the numbers below 64, and no other character has
a value (`base64Digit_of_base64Value?`); the padding is none of them. Three octets and four digits
are the same number of 24 bits, which is what both directions of the main statement come to.
-/

namespace WsGateway.Text

/-! ## Digits -/

/-- A digit has the value it is for. -/
theorem base64Value?_base64Digit : ∀ n < 64, base64Value? (base64Digit n) = some n := by
  decide

/-- A character with a value is the digit of that value. -/
theorem base64Digit_of_base64Value? {c : Char} {n : Nat} (h : base64Value? c = some n) :
    n < 64 ∧ base64Digit n = c := by
  have hle : ∀ {a b : Char}, a ≤ b ↔ a.toNat ≤ b.toNat := UInt32.le_iff_toNat_le
  have hself : ∀ m, m = c.toNat → Char.ofNat m = c := fun m hm => hm ▸ Char.ofNat_toNat c
  have hA : 'A'.toNat = 65 := rfl
  have hZ : 'Z'.toNat = 90 := rfl
  have ha : 'a'.toNat = 97 := rfl
  have hz : 'z'.toNat = 122 := rfl
  have h0 : '0'.toNat = 48 := rfl
  have h9 : '9'.toNat = 57 := rfl
  -- Three ranges and two single characters, in the order in which the reader asks for them.
  unfold base64Value? at h
  simp only [hle] at h
  unfold base64Digit
  split at h
  · next hc =>
    cases h
    rw [if_pos (by omega)]
    exact ⟨by omega, hself _ (by omega)⟩
  · split at h
    · next hc =>
      cases h
      rw [if_neg (by omega), if_pos (by omega)]
      exact ⟨by omega, hself _ (by omega)⟩
    · split at h
      · next hc =>
        cases h
        rw [if_neg (by omega), if_neg (by omega), if_pos (by omega)]
        exact ⟨by omega, hself _ (by omega)⟩
      · split at h
        · next hc =>
          cases h
          exact ⟨by decide, hc.symm⟩
        · split at h
          · next hc =>
            cases h
            exact ⟨by decide, hc.symm⟩
          · cases h

theorem base64Digit_ne_padding : ∀ n < 64, base64Digit n ≠ '=' := by
  decide

/-! ## Groups -/

/-- Four digits of which the last is no padding are read as three octets. -/
theorem ofBase64?_digits {a b c d : Nat} (ha : a < 64) (hb : b < 64) (hc : c < 64) (hd : d < 64)
    (rest : List Char) :
    ofBase64? (base64Digit a :: base64Digit b :: base64Digit c :: base64Digit d :: rest) =
      (ofBase64? rest).map fun bytes =>
        UInt8.ofNat ((((a * 64 + b) * 64 + c) * 64 + d) / 65536)
          :: UInt8.ofNat ((((a * 64 + b) * 64 + c) * 64 + d) / 256 % 256)
          :: UInt8.ofNat ((((a * 64 + b) * 64 + c) * 64 + d) % 256) :: bytes := by
  have hpad := base64Digit_ne_padding d hd
  rw [ofBase64?]
  · simp only [base64Value?_base64Digit, ha, hb, hc, hd, bind, Option.bind_some]
    cases ofBase64? rest <;> rfl
  · exact fun _ h _ => hpad h
  · exact fun h _ => hpad h

/-- What is written is read back, group by group. -/
theorem ofBase64?_toBase64 (bytes : Octets) : ofBase64? (toBase64 bytes) = some bytes := by
  -- The cases are those of the encoder: one or two octets at the end are padded, three are one
  -- group.
  fun_induction toBase64 bytes with
  | case1 => rfl
  | case2 a n =>
    have hlt := a.toNat_lt
    have hn : n / 64 * 64 + n % 64 = n := by omega
    rw [ofBase64?]
    simp only [base64Value?_base64Digit (n / 64) (by omega),
      base64Value?_base64Digit (n % 64) (by omega), bind, Option.bind_some, hn]
    rw [if_pos (by omega), show n / 16 = a.toNat by omega, UInt8.ofNat_toNat]
  | case3 a b n =>
    have hlta := a.toNat_lt
    have hltb := b.toNat_lt
    have hn : (n / 4096 * 64 + n / 64 % 64) * 64 + n % 64 = n := by omega
    rw [ofBase64?]
    · simp only [base64Value?_base64Digit (n / 4096) (by omega),
        base64Value?_base64Digit (n / 64 % 64) (by omega),
        base64Value?_base64Digit (n % 64) (by omega), bind, Option.bind_some, hn]
      rw [if_pos (by omega), show n / 1024 = a.toNat by omega,
        show n / 4 % 256 = b.toNat by omega, UInt8.ofNat_toNat, UInt8.ofNat_toNat]
    · exact base64Digit_ne_padding _ (by omega)
  | case4 a b c rest n ih =>
    have hlta := a.toNat_lt
    have hltb := b.toNat_lt
    have hltc := c.toNat_lt
    have hn : ((n / 262144 * 64 + n / 4096 % 64) * 64 + n / 64 % 64) * 64 + n % 64 = n := by omega
    rw [ofBase64?_digits (by omega) (by omega) (by omega) (by omega), ih, hn,
      show n / 65536 = a.toNat by omega, show n / 256 % 256 = b.toNat by omega,
      show n % 256 = c.toNat by omega]
    simp only [Option.map_some, UInt8.ofNat_toNat]

/-- What is read is what writing gives, group by group. -/
theorem toBase64_of_ofBase64? {cs : List Char} {bytes : Octets} (h : ofBase64? cs = some bytes) :
    toBase64 bytes = cs := by
  -- The cases are those of the decoder, which refuses bits that the padding leaves over.
  fun_induction ofBase64? cs generalizing bytes with
  | case1 =>
    cases h
    rfl
  | case2 a b =>
    simp only [bind, Option.bind_eq_some_iff] at h
    obtain ⟨x, hx, y, hy, h⟩ := h
    split at h
    · next hbits =>
      cases h
      obtain ⟨hx, rfl⟩ := base64Digit_of_base64Value? hx
      obtain ⟨hy, rfl⟩ := base64Digit_of_base64Value? hy
      rw [toBase64, UInt8.toNat_ofNat_of_lt' (by show _ < 256; omega),
        show (x * 64 + y) / 16 * 16 / 64 = x by omega,
        show (x * 64 + y) / 16 * 16 % 64 = y by omega]
    · cases h
  | case3 a b c hpad =>
    simp only [bind, Option.bind_eq_some_iff] at h
    obtain ⟨x, hx, y, hy, z, hz, h⟩ := h
    split at h
    · next hbits =>
      cases h
      obtain ⟨hx, rfl⟩ := base64Digit_of_base64Value? hx
      obtain ⟨hy, rfl⟩ := base64Digit_of_base64Value? hy
      obtain ⟨hz, rfl⟩ := base64Digit_of_base64Value? hz
      rw [toBase64, UInt8.toNat_ofNat_of_lt' (by show _ < 256; omega),
        UInt8.toNat_ofNat_of_lt' (by show _ < 256; omega)]
      have hn : (((x * 64 + y) * 64 + z) / 1024 * 256 + ((x * 64 + y) * 64 + z) / 4 % 256) * 4 =
          (x * 64 + y) * 64 + z := by omega
      rw [hn, show ((x * 64 + y) * 64 + z) / 4096 = x by omega,
        show ((x * 64 + y) * 64 + z) / 64 % 64 = y by omega,
        show ((x * 64 + y) * 64 + z) % 64 = z by omega]
    · cases h
  | case4 a b c d rest hpads hpad ih =>
    simp only [bind, Option.bind_eq_some_iff] at h
    obtain ⟨x, hx, y, hy, z, hz, w, hw, more, hmore, h⟩ := h
    cases h
    obtain ⟨hx, rfl⟩ := base64Digit_of_base64Value? hx
    obtain ⟨hy, rfl⟩ := base64Digit_of_base64Value? hy
    obtain ⟨hz, rfl⟩ := base64Digit_of_base64Value? hz
    obtain ⟨hw, rfl⟩ := base64Digit_of_base64Value? hw
    rw [toBase64, ih hmore, UInt8.toNat_ofNat_of_lt' (by show _ < 256; omega),
      UInt8.toNat_ofNat_of_lt' (by show _ < 256; omega),
      UInt8.toNat_ofNat_of_lt' (by show _ < 256; omega)]
    generalize hn : ((x * 64 + y) * 64 + z) * 64 + w = n
    rw [show (n / 65536 * 256 + n / 256 % 256) * 256 + n % 256 = n by omega,
      show n / 262144 = x by omega, show n / 4096 % 64 = y by omega,
      show n / 64 % 64 = z by omega, show n % 64 = w by omega]
  | case5 => cases h

/-- **Reading accepts just what writing gives.** -/
theorem ofBase64?_eq_some_iff {cs : List Char} {bytes : Octets} :
    ofBase64? cs = some bytes ↔ cs = toBase64 bytes := by
  constructor
  · exact fun h => (toBase64_of_ofBase64? h).symm
  · rintro rfl
    exact ofBase64?_toBase64 bytes

/-! ## Characters -/

/-- A base64 text consists of digits and padding. -/
theorem mem_toBase64 {bytes : Octets} {x : Char} (h : x ∈ toBase64 bytes) :
    x = '=' ∨ ∃ n < 64, x = base64Digit n := by
  fun_induction toBase64 bytes with
  | case1 => cases h
  | case2 a n =>
    have hlt := a.toNat_lt
    simp only [List.mem_cons, List.not_mem_nil, or_false] at h
    rcases h with rfl | rfl | rfl | rfl
    · exact .inr ⟨_, by omega, rfl⟩
    · exact .inr ⟨_, by omega, rfl⟩
    · exact .inl rfl
    · exact .inl rfl
  | case3 a b n =>
    have hlta := a.toNat_lt
    have hltb := b.toNat_lt
    simp only [List.mem_cons, List.not_mem_nil, or_false] at h
    rcases h with rfl | rfl | rfl | rfl
    · exact .inr ⟨_, by omega, rfl⟩
    · exact .inr ⟨_, by omega, rfl⟩
    · exact .inr ⟨_, by omega, rfl⟩
    · exact .inl rfl
  | case4 a b c rest n ih =>
    have hlta := a.toNat_lt
    have hltb := b.toNat_lt
    have hltc := c.toNat_lt
    simp only [List.mem_cons] at h
    rcases h with rfl | rfl | rfl | rfl | h
    · exact .inr ⟨_, by omega, rfl⟩
    · exact .inr ⟨_, by omega, rfl⟩
    · exact .inr ⟨_, by omega, rfl⟩
    · exact .inr ⟨_, by omega, rfl⟩
    · exact ih h

theorem isBlank_base64Digit : ∀ n < 64, isBlank (base64Digit n) = false := by
  decide

/-- There are no blanks in base64. -/
theorem isBlank_of_mem_toBase64 {bytes : Octets} {x : Char} (h : x ∈ toBase64 bytes) :
    isBlank x = false := by
  rcases mem_toBase64 h with rfl | ⟨n, hn, rfl⟩
  · decide
  · exact isBlank_base64Digit n hn

end WsGateway.Text
