import WsGateway.Proofs.Text.Pieces
import WsGateway.Text.Digits

/-!
# Reading decimal digits

What the reader of unsigned numbers takes for a number: decimal digits behind at most one plus sign,
whatever zeros stand in front, unless the number has no room in 64 bits (`uint64?_eq_some_iff`).
-/

namespace WsGateway.Text

/-- The characters are decimal digits, at least one of them, that spell the number. -/
structure SpellsNumber (cs : List Char) (n : Nat) : Prop where
  ne_nil : cs ≠ []
  digits : ∀ c ∈ cs, c.isDigit = true
  value : Nat.ofDigitChars 10 cs 0 = n

/-- The digits of the number stand behind at most one plus sign. -/
def WritesNumber (cs : List Char) (n : Nat) : Prop :=
  ∃ digits, SpellsNumber digits n ∧ (cs = digits ∨ cs = '+' :: digits)

/-- Digits stand between 48 and 57. -/
theorem toNat_of_isDigit {c : Char} (h : c.isDigit = true) : 48 ≤ c.toNat ∧ c.toNat ≤ 57 := by
  rw [Char.isDigit, Bool.and_eq_true, decide_eq_true_eq, decide_eq_true_eq] at h
  exact ⟨h.1, h.2⟩

theorem isBlank_digit {c : Char} (h : c.isDigit = true) : isBlank c = false := by
  obtain ⟨hlow, hhigh⟩ := toNat_of_isDigit h
  simp only [isBlank, Bool.or_eq_false_iff, Bool.and_eq_false_iff, decide_eq_false_iff_not,
    beq_eq_false_iff_ne]
  omega

/-- Digits are read by value: there is nothing but digits, and the number is theirs. -/
theorem digitsFrom_eq_some_iff {cs : List Char} {acc n : Nat} :
    digitsFrom acc cs = some n ↔
      (∀ c ∈ cs, c.isDigit = true) ∧ Nat.ofDigitChars 10 cs acc = n := by
  induction cs generalizing acc with
  | nil =>
    rw [digitsFrom, Nat.ofDigitChars_nil, Option.some.injEq]
    exact (and_iff_right nofun).symm
  | cons c cs ih =>
    rw [digitsFrom, List.forall_mem_cons, Nat.ofDigitChars_cons, Nat.mul_comm 10]
    split
    · next hc => rw [ih, and_iff_right hc]
    · next hc => exact iff_of_false nofun fun h => hc h.1.1

/-- A number is read from just the texts that spell it. -/
theorem digits?_eq_some_iff {cs : List Char} {n : Nat} :
    digits? cs = some n ↔ SpellsNumber cs n := by
  cases cs with
  | nil => exact iff_of_false nofun fun h => h.ne_nil rfl
  | cons c cs =>
    rw [digits?, digitsFrom_eq_some_iff]
    · exact ⟨fun h => ⟨List.cons_ne_nil c cs, h.1, h.2⟩, fun h => ⟨h.digits, h.value⟩⟩
    · exact nofun

theorem plus_not_digit : ¬ ('+').isDigit = true := by decide

/-- A plus sign in front is passed over, and stands nowhere else. -/
theorem number?_eq_some_iff {bound n : Nat} {s : String} :
    number? bound s = some n ↔ WritesNumber s.toList n ∧ n < bound := by
  have hfilter : ∀ body, (digits? body).filter (decide <| · < bound) = some n ↔
      SpellsNumber body n ∧ n < bound := by
    intro body
    rw [Option.filter_eq_some_iff, digits?_eq_some_iff, decide_eq_true_eq]
  unfold number? WritesNumber
  dsimp only
  split
  · next cs hcs =>
    rw [hfilter, hcs]
    constructor
    · rintro ⟨hspells, hroom⟩
      exact ⟨⟨cs, hspells, .inr rfl⟩, hroom⟩
    · rintro ⟨⟨digits, hspells, hsame⟩, hroom⟩
      -- the sign is no digit, so that the digits are those behind it
      rcases hsame with hdigits | hdigits
      · exact absurd (hspells.digits '+' (hdigits ▸ List.mem_cons_self)) plus_not_digit
      · cases hdigits
        exact ⟨hspells, hroom⟩
  · next hne =>
    rw [hfilter]
    constructor
    · rintro ⟨hspells, hroom⟩
      exact ⟨⟨s.toList, hspells, .inl rfl⟩, hroom⟩
    · rintro ⟨⟨digits, hspells, hsame⟩, hroom⟩
      rcases hsame with hdigits | hdigits
      · exact ⟨hdigits ▸ hspells, hroom⟩
      · exact absurd hdigits (hne digits)

/-- **What is read** as an unsigned number of 64 bits: what writes it in decimal digits. -/
theorem uint64?_eq_some_iff {s : String} {n : UInt64} :
    uint64? s = some n ↔ WritesNumber s.toList n.toNat := by
  unfold uint64?
  rw [Option.map_eq_some_iff]
  constructor
  · rintro ⟨m, hm, rfl⟩
    obtain ⟨hwrites, hroom⟩ := number?_eq_some_iff.mp hm
    have hsame : (UInt64.ofNat m).toNat = m := UInt64.toNat_ofNat_of_lt hroom
    rwa [hsame]
  · intro hwrites
    exact ⟨n.toNat, number?_eq_some_iff.mpr ⟨hwrites, n.toNat_lt⟩, UInt64.ofNat_toNat⟩

namespace SpellsNumber

variable {s : String} {n : Nat}

/-- Without a sign there is no other way to take the text. -/
theorem writesNumber_iff (h : SpellsNumber s.toList n) {m : Nat} :
    WritesNumber s.toList m ↔ m = n := by
  constructor
  · rintro ⟨digits, hspells, hsame⟩
    rcases hsame with rfl | hplus
    · exact hspells.value.symm.trans h.value
    · exact absurd (h.digits '+' (hplus ▸ List.mem_cons_self)) plus_not_digit
  · rintro rfl
    exact ⟨s.toList, h, .inl rfl⟩

/-- There is nothing to trim. -/
theorem trim_eq (h : SpellsNumber s.toList n) : trim s = s := by
  have hblank : ∀ c ∈ s.toList, isBlank c = false := fun c hc => isBlank_digit (h.digits c hc)
  have hbetween : BetweenBlanks s.toList s.toList :=
    ⟨[], [], (List.append_nil _).symm, nofun, nofun⟩
  rw [trim, (trimChars_eq_iff h.ne_nil hblank).mpr hbetween, String.ofList_toList]

end SpellsNumber

end WsGateway.Text
