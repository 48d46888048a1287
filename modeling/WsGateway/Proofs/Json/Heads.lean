import Mathlib.Tactic.Tauto
import WsGateway.Proofs.Json.Inversion

/-!
# The first character of a value

What a reader does with a value is decided by the first character behind the blanks. Each of the
ways is an equation here, for reading (`readValueWith_null` and so on) and for skipping
(`skipNested_null` and so on), and `head_cases` goes through them. A value that was read was read in
one of the ways in which reading can succeed (`ReadsValue`), so that proofs about values that were
read are by cases on these (`readValueWith_eq_ok_iff`).
-/

namespace WsGateway.Json

/-- A character that begins no word, string, list or object. -/
def BeginsOther (c : Char) : Prop :=
  c ≠ 'n' ∧ c ≠ 't' ∧ c ≠ 'f' ∧ c ≠ '"' ∧ c ≠ '[' ∧ c ≠ '\x7b'

/-- The first character of a value decides what is read. -/
theorem head_cases (c : Char) :
    c = 'n' ∨ c = 't' ∨ c = 'f' ∨ c = '"' ∨ c = '[' ∨ c = '\x7b' ∨ BeginsOther c := by
  rw [BeginsOther]
  tauto

/-- Numbers begin with no character of another kind of value. -/
theorem beginsOther_of_number {c : Char} (hc : c = '-' ∨ c.isDigit = true) : BeginsOther c := by
  rw [BeginsOther]
  refine ⟨?_, ?_, ?_, ?_, ?_, ?_⟩ <;> (rintro rfl; revert hc; decide)

theorem isBlank_of_number {c : Char} (hc : c = '-' ∨ c.isDigit = true) : isBlank c = false := by
  have hne : c ≠ ' ' ∧ c ≠ '\n' ∧ c ≠ '\t' ∧ c ≠ '\r' := by
    refine ⟨?_, ?_, ?_, ?_⟩ <;> (rintro rfl; revert hc; decide)
  simp [isBlank, hne]

section Read

variable {parse : String → Except String Value} {limit : Nat} (depth : Nat) {s s' : List Char}

theorem readValueWith_nil (h : skipBlanks s = []) :
    readValueWith parse limit depth s = .error (.here .endInValue []) := by
  rw [readValueWith_eq, h]

theorem readValueWith_null (h : skipBlanks s = 'n' :: s') :
    readValueWith parse limit depth s = (do
      let s ← readWord ['u', 'l', 'l'] s'
      pure (.null, s)) := by
  rw [readValueWith_eq, h]
  rfl

theorem readValueWith_true (h : skipBlanks s = 't' :: s') :
    readValueWith parse limit depth s = (do
      let s ← readWord ['r', 'u', 'e'] s'
      pure (.bool true, s)) := by
  rw [readValueWith_eq, h]
  rfl

theorem readValueWith_false (h : skipBlanks s = 'f' :: s') :
    readValueWith parse limit depth s = (do
      let s ← readWord ['a', 'l', 's', 'e'] s'
      pure (.bool false, s)) := by
  rw [readValueWith_eq, h]
  rfl

theorem readValueWith_string (h : skipBlanks s = '"' :: s') :
    readValueWith parse limit depth s = (do
      let (text, s) ← readString limit s'
      pure (.string text, s)) := by
  rw [readValueWith_eq, h]
  rfl

theorem readValueWith_array (h : skipBlanks s = '[' :: s') :
    readValueWith parse limit (depth + 1) s = (do
      let (items, s) ← readElements (readValueWith parse limit depth) (limit + 1) true s'
      pure (.array items, s)) := by
  rw [readValueWith_eq, h]
  rfl

theorem readValueWith_object (h : skipBlanks s = '\x7b' :: s') :
    readValueWith parse limit (depth + 1) s =
      (match afterEmbeddingName? limit s' with
      | some rest => readEmbedded parse limit rest
      | none => do
        let (members, s) ←
          readMembers limit (readValueWith parse limit depth) (limit + 1) true s'
        pure (.ofMembers members, s)) := by
  rw [readValueWith_eq, h]
  rfl

/-- Lists and objects cannot be read when the nesting is used up. -/
theorem readValueWith_zero {c : Char} (hc : c = '[' ∨ c = '\x7b') (h : skipBlanks s = c :: s') :
    readValueWith parse limit 0 s = .error (.next .tooDeep (c :: s')) := by
  rw [readValueWith_eq, h]
  rcases hc with rfl | rfl <;> rfl

theorem readValueWith_other {c : Char} (hc : BeginsOther c) (h : skipBlanks s = c :: s') :
    readValueWith parse limit depth s =
      if c = '-' ∨ c.isDigit then do
        let (n, s) ← readNumber (c :: s')
        pure (.number n, s)
      else .error (.next .expectedValue (c :: s')) := by
  obtain ⟨hn, ht, hf, hquote, hbracket, hbrace⟩ := hc
  rw [readValueWith_eq, h]
  split
  · next heq => cases heq
  · next heq => exact absurd (List.cons.inj heq).1 hn
  · next heq => exact absurd (List.cons.inj heq).1 ht
  · next heq => exact absurd (List.cons.inj heq).1 hf
  · next heq => exact absurd (List.cons.inj heq).1 hquote
  · next heq => exact absurd (List.cons.inj heq).1 hbracket
  · next heq => exact absurd (List.cons.inj heq).1 hbrace
  · next heq =>
    cases heq
    rfl

/-- The ways to read a value, from behind the blanks in front of it. -/
inductive ReadsValue (parse : String → Except String Value) (limit : Nat) :
    Nat → List Char → Value → List Char → Prop where
  | null {depth : Nat} {s r : List Char} (h : readWord ['u', 'l', 'l'] s = .ok r) :
    ReadsValue parse limit depth ('n' :: s) .null r
  | true {depth : Nat} {s r : List Char} (h : readWord ['r', 'u', 'e'] s = .ok r) :
    ReadsValue parse limit depth ('t' :: s) (.bool true) r
  | false {depth : Nat} {s r : List Char} (h : readWord ['a', 'l', 's', 'e'] s = .ok r) :
    ReadsValue parse limit depth ('f' :: s) (.bool false) r
  | string {depth : Nat} {s r : List Char} {text : String}
    (h : readString limit s = .ok (text, r)) :
    ReadsValue parse limit depth ('"' :: s) (.string text) r
  | array {depth : Nat} {s r : List Char} {items : List Value}
    (h : readElements (readValueWith parse limit depth) (limit + 1) true s = .ok (items, r)) :
    ReadsValue parse limit (depth + 1) ('[' :: s) (.array items) r
  | embedded {depth : Nat} {s rest r : List Char} {v : Value}
    (hname : afterEmbeddingName? limit s = some rest)
    (h : readEmbedded parse limit rest = .ok (v, r)) :
    ReadsValue parse limit (depth + 1) ('\x7b' :: s) v r
  | object {depth : Nat} {s r : List Char} {members : List (String × Value)}
    (hname : afterEmbeddingName? limit s = none)
    (h : readMembers limit (readValueWith parse limit depth) (limit + 1) true s =
      .ok (members, r)) :
    ReadsValue parse limit (depth + 1) ('\x7b' :: s) (.ofMembers members) r
  | number {depth : Nat} {c : Char} {s r : List Char} {n : Number}
    (hc : c = '-' ∨ c.isDigit = true) (h : readNumber (c :: s) = .ok (n, r)) :
    ReadsValue parse limit depth (c :: s) (.number n) r

variable {depth} {v : Value} {r : List Char}

/-- Whatever the reader accepts, it read by one of the cases. -/
theorem readsValue_of_ok (h : readValueWith parse limit depth s = .ok (v, r)) :
    ReadsValue parse limit depth (skipBlanks s) v r := by
  cases hs : skipBlanks s with
  | nil =>
    rw [readValueWith_nil _ hs] at h
    cases h
  | cons c s' =>
    -- One case for each first character; brackets and braces need depth for what is inside.
    rcases head_cases c with rfl | rfl | rfl | rfl | rfl | rfl | hc
    · rw [readValueWith_null _ hs] at h
      obtain ⟨s₁, hword, h⟩ := bind_eq_ok.mp h
      cases h
      exact .null hword
    · rw [readValueWith_true _ hs] at h
      obtain ⟨s₁, hword, h⟩ := bind_eq_ok.mp h
      cases h
      exact .true hword
    · rw [readValueWith_false _ hs] at h
      obtain ⟨s₁, hword, h⟩ := bind_eq_ok.mp h
      cases h
      exact .false hword
    · rw [readValueWith_string _ hs] at h
      obtain ⟨⟨text, s₁⟩, htext, h⟩ := bind_eq_ok.mp h
      cases h
      exact .string htext
    · cases depth with
      | zero =>
        rw [readValueWith_zero (.inl rfl) hs] at h
        cases h
      | succ depth =>
        rw [readValueWith_array _ hs] at h
        obtain ⟨⟨items, s₁⟩, hitems, h⟩ := bind_eq_ok.mp h
        cases h
        exact .array hitems
    · cases depth with
      | zero =>
        rw [readValueWith_zero (.inr rfl) hs] at h
        cases h
      | succ depth =>
        rw [readValueWith_object _ hs] at h
        split at h
        · next rest hname => exact .embedded hname h
        · next hname =>
          obtain ⟨⟨members, s₁⟩, hmembers, h⟩ := bind_eq_ok.mp h
          cases h
          exact .object hname hmembers
    · rw [readValueWith_other _ hc hs] at h
      split at h
      · next hnumber =>
        obtain ⟨⟨n, s₁⟩, hn, h⟩ := bind_eq_ok.mp h
        cases h
        exact .number hnumber hn
      · cases h

/-- Whatever one of the cases gives, the reader accepts. -/
theorem ReadsValue.ok {text : List Char} (h : ReadsValue parse limit depth text v r)
    (hs : skipBlanks s = text) : readValueWith parse limit depth s = .ok (v, r) := by
  cases h with
  | null hword =>
    rw [readValueWith_null _ hs]
    exact bind_eq_ok.mpr ⟨_, hword, rfl⟩
  | true hword =>
    rw [readValueWith_true _ hs]
    exact bind_eq_ok.mpr ⟨_, hword, rfl⟩
  | false hword =>
    rw [readValueWith_false _ hs]
    exact bind_eq_ok.mpr ⟨_, hword, rfl⟩
  | string htext =>
    rw [readValueWith_string _ hs]
    exact bind_eq_ok.mpr ⟨_, htext, rfl⟩
  | array hitems =>
    rw [readValueWith_array _ hs]
    exact bind_eq_ok.mpr ⟨_, hitems, rfl⟩
  | embedded hname hv =>
    rw [readValueWith_object _ hs, hname]
    exact hv
  | object hname hmembers =>
    rw [readValueWith_object _ hs, hname]
    exact bind_eq_ok.mpr ⟨_, hmembers, rfl⟩
  | number hc hn =>
    rw [readValueWith_other _ (beginsOther_of_number hc) hs, if_pos hc]
    exact bind_eq_ok.mpr ⟨_, hn, rfl⟩

/-- **A value is read in one of the ways.** -/
theorem readValueWith_eq_ok_iff :
    readValueWith parse limit depth s = .ok (v, r) ↔
      ReadsValue parse limit depth (skipBlanks s) v r :=
  ⟨readsValue_of_ok, fun h => h.ok rfl⟩

end Read

section Skip

variable {limit : Nat} (depth : Nat) {s s' : List Char}

theorem skipNested_null (h : skipBlanks s = 'n' :: s') :
    skipNested limit depth s = readWord ['u', 'l', 'l'] s' := by
  rw [skipNested_eq, h]
  rfl

theorem skipNested_true (h : skipBlanks s = 't' :: s') :
    skipNested limit depth s = readWord ['r', 'u', 'e'] s' := by
  rw [skipNested_eq, h]
  rfl

theorem skipNested_false (h : skipBlanks s = 'f' :: s') :
    skipNested limit depth s = readWord ['a', 'l', 's', 'e'] s' := by
  rw [skipNested_eq, h]
  rfl

theorem skipNested_string (h : skipBlanks s = '"' :: s') :
    skipNested limit depth s = skipString limit s' := by
  rw [skipNested_eq, h]
  rfl

theorem skipNested_array (h : skipBlanks s = '[' :: s') :
    skipNested limit (depth + 1) s = skipElements (skipNested limit depth) (limit + 1) true s' := by
  rw [skipNested_eq, h]
  rfl

theorem skipNested_object (h : skipBlanks s = '\x7b' :: s') :
    skipNested limit (depth + 1) s =
      skipMembers limit (skipNested limit depth) (limit + 1) true s' := by
  rw [skipNested_eq, h]
  rfl

theorem skipNested_nil (h : skipBlanks s = []) :
    skipNested limit depth s = .error (.here .endInValue []) := by
  rw [skipNested_eq, h]

/-- Lists and objects cannot be skipped when the nesting is used up. -/
theorem skipNested_zero {c : Char} (hc : c = '[' ∨ c = '\x7b') (h : skipBlanks s = c :: s') :
    skipNested limit 0 s = .error (.next .tooDeep (c :: s')) := by
  rw [skipNested_eq, h]
  rcases hc with rfl | rfl <;> rfl

theorem skipNested_other {c : Char} (hc : BeginsOther c) (h : skipBlanks s = c :: s') :
    skipNested limit depth s =
      if c = '-' ∨ c.isDigit then skipNumber (c :: s')
      else .error (.next .expectedValue (c :: s')) := by
  obtain ⟨hn, ht, hf, hquote, hbracket, hbrace⟩ := hc
  rw [skipNested_eq, h]
  split
  · next heq => cases heq
  · next heq => exact absurd (List.cons.inj heq).1 hn
  · next heq => exact absurd (List.cons.inj heq).1 ht
  · next heq => exact absurd (List.cons.inj heq).1 hf
  · next heq => exact absurd (List.cons.inj heq).1 hquote
  · next heq => exact absurd (List.cons.inj heq).1 hbracket
  · next heq => exact absurd (List.cons.inj heq).1 hbrace
  · next heq =>
    cases heq
    rfl

theorem skipNested_number {c : Char} (hc : c = '-' ∨ c.isDigit = true)
    (h : skipBlanks s = c :: s') : skipNested limit depth s = skipNumber (c :: s') := by
  rw [skipNested_other depth (beginsOther_of_number hc) h, if_pos hc]

end Skip

end WsGateway.Json
