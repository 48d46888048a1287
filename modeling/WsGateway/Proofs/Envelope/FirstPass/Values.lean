import WsGateway.Envelope.Request
import WsGateway.Proofs.Json.Spelling

/-!
# The values of an envelope

What the first pass takes from the value of one member: a JSON value, or nothing if that is null,
or the text of a payload as it stands (`readsAs_verbatim`). A value that is read is also skipped to
the same place (`skippable_member`, `skippable_verbatim`), so that the pass goes on behind it
whether it was read or passed over.
-/

namespace WsGateway

open Json

namespace LooseRequest

/-- How deep lists and objects may be nested in a member. -/
def memberDepth : Nat := maxDepth - 1

/-! ## What stands in one member -/

section Values

variable {limit depth : Nat}

theorem option_skipBlanks {α : Type} (decoder : Decoder α) (s : List Char) :
    Decoder.option decoder limit depth (skipBlanks s) = Decoder.option decoder limit depth s := by
  simp only [Decoder.option, skipBlanks_skipBlanks]

/-- A text that begins as the word for null does has to be that word. -/
theorem option_of_null {α : Type} (decoder : Decoder α) {s s' : List Char}
    (h : skipBlanks s = 'n' :: s') : Decoder.option decoder limit depth s = (do
      let rest ← readWord ['u', 'l', 'l'] s'
      pure (none, rest)) := by
  simp only [Decoder.option, h]

/-- Any other text is left to the decoder of the value. -/
theorem option_of_ne {α : Type} (decoder : Decoder α) {s s' : List Char} {c : Char}
    (h : skipBlanks s = c :: s') (hc : c ≠ 'n') : Decoder.option decoder limit depth s = (do
      let (a, rest) ← decoder limit depth (c :: s')
      pure (some a, rest)) := by
  rw [Decoder.option, h]
  split
  · next heq => exact absurd (List.cons.inj heq).1 hc
  · rfl

/-- How a member that may be null is read. -/
theorem option_ok {α : Type} {decoder : Decoder α} {s r : List Char} {a : Option α}
    (hnil : ∀ x, decoder limit depth [] ≠ .ok x)
    (h : Decoder.option decoder limit depth s = .ok (a, r)) :
    (∃ s', skipBlanks s = 'n' :: s' ∧ readWord ['u', 'l', 'l'] s' = .ok r ∧ a = none) ∨
      ∃ c s' b, skipBlanks s = c :: s' ∧ c ≠ 'n' ∧ decoder limit depth (c :: s') = .ok (b, r) ∧
        a = some b := by
  cases hs : skipBlanks s with
  | nil =>
    rw [Decoder.option, hs] at h
    obtain ⟨x, hx, -⟩ := bind_eq_ok.mp h
    exact absurd hx (hnil x)
  | cons c s' =>
    -- An option looks at one character: `n` has to begin `null`, and anything else is the
    -- decoder's.
    by_cases hc : c = 'n'
    · subst hc
      rw [option_of_null decoder hs, bind_eq_ok] at h
      obtain ⟨rest, hword, h⟩ := h
      cases h
      exact .inl ⟨s', rfl, hword, rfl⟩
    · rw [option_of_ne decoder hs hc, bind_eq_ok] at h
      obtain ⟨⟨b, rest⟩, hb, h⟩ := h
      cases h
      exact .inr ⟨c, s', b, rfl, hc, hb, rfl⟩

/-- There is no value at the end of a text. -/
theorem readValue_nil (x : Value × List Char) : readValue limit depth [] ≠ .ok x := by
  rw [readValue, readValueWith_nil depth rfl]
  intro h
  cases h

/-- Nor is there one that is kept as its text. -/
theorem readVerbatim_nil (x : String × List Char) : Decoder.verbatim limit depth [] ≠ .ok x := by
  intro h
  obtain ⟨rest, hskip, -⟩ := bind_eq_ok.mp h
  rw [skipValue, skipNested_nil _ rfl] at hskip
  cases hskip

/-- What is read in a text of its own is read in front of anything that ends numbers. -/
theorem member_append {limit limit' : Nat} (hlimit : limit ≤ limit') {t : List Char}
    (ht : EndsNumber t) : Extends t (member limit depth) (member limit' depth) := by
  intro s a r h
  rcases option_ok readValue_nil h with ⟨s', hs, hword, rfl⟩ | ⟨c, s', b, hs, hc, hb, rfl⟩
  · rw [member, option_of_null _ (skipBlanks_append hs t), readWord_append hword]
    rfl
  · have happend : Decoder.value limit' depth (c :: (s' ++ t)) = .ok (b, r ++ t) :=
      readValue_append hlimit ht depth hb
    rw [member, option_of_ne _ (skipBlanks_append hs t) hc, happend]
    rfl

/-- A value that is null is skipped as it is read. -/
theorem skipNested_of_null {s s' r : List Char} (hs : skipBlanks s = 'n' :: s')
    (hword : readWord ['u', 'l', 'l'] s' = .ok r) (limit depth : Nat) :
    skipNested limit depth s = .ok r := by
  rw [skipNested_null depth hs, hword]

/-- A member is read as a value is: it holds nothing if that is null. -/
theorem readValue_of_member {s r : List Char} {a : Option Value}
    (h : member limit depth s = .ok (a, r)) : readValue limit depth s = .ok (a.getD .null, r) := by
  rw [readValue]
  rcases option_ok readValue_nil h with ⟨s', hs, hword, rfl⟩ | ⟨c, s', b, hs, -, hb, rfl⟩
  · rw [readValueWith_null depth hs, hword]
    rfl
  · rw [← readValueWith_skipBlanks, hs]
    exact hb

/-- What is read is skipped to the same place, by a skipper that goes at least as deep as the text
is long. -/
def Skippable {α : Type} (limit : Nat) (f : List Char → Except Fault (α × List Char)) : Prop :=
  ∀ ⦃s a r⦄, s.length ≤ limit → f s = .ok (a, r) →
    ∃ depth, limit ≤ depth ∧ skipNested limit depth s = .ok r

/-- A member that is read can be skipped. -/
theorem skippable_member (limit depth : Nat) : Skippable limit (member limit depth) := by
  intro s a r hlimit h
  have hskip := skipNested_of_readValueWith _ (Nat.le_max_right limit depth) hlimit
    (readValue_of_member h)
  exact ⟨max limit depth, Nat.le_max_left _ _, hskip⟩

/-- A value that is kept as its text can be skipped. -/
theorem skippable_verbatim (limit depth : Nat) : Skippable limit (verbatim limit depth) := by
  intro s a r _ h
  refine ⟨limit + 1, Nat.le_succ _, ?_⟩
  rcases option_ok readVerbatim_nil h with ⟨s', hs, hword, -⟩ | ⟨c, s', b, hs, -, hb, -⟩
  · exact skipNested_of_null hs hword limit (limit + 1)
  · obtain ⟨rest, hskip, hb⟩ := bind_eq_ok.mp hb
    cases hb
    rw [← hs, skipBlanks_skipBlanks, skipValue, skipNested_skipBlanks] at hskip
    exact hskip

end Values

/-! ## The payload -/

/-- What is kept of a payload: its text, unless that is null. -/
def keptText (text : List Char) : Option String :=
  if text = "null".toList then none else some (String.ofList text)

/-- Only null begins as null does. -/
theorem eq_null_of_head {text cs : List Char} (h : WellFormed text) (htight : Tight text)
    (hhead : skipBlanks text = 'n' :: cs) : text = "null".toList := by
  have hskip := htight.skipValue_eq h (Nat.le_refl _) endsNumber_nil
  rw [List.append_nil, skipValue, skipNested_null _ hhead] at hskip
  have hcs := readWord_eq_ok_iff.mp hskip
  rw [List.append_nil] at hcs
  rw [← htight.skipBlanks_eq, hhead, hcs]
  rfl

/-- **A payload is kept as it stands**, whatever it is, unless it is null. -/
theorem readsAs_verbatim {text : List Char} (h : WellFormed text) (htight : Tight text)
    {limit depth : Nat} (hlimit : text.length ≤ limit) :
    ReadsAs (verbatim limit depth) text (keptText text) := by
  refine readsAs_of_exact fun t ht => ?_
  obtain ⟨c, cs, hhead, -⟩ := h.beginsBehindBlanks
  have hskip := skipBlanks_append hhead t
  -- Only `null` begins with an `n`, and it is kept as no text at all.
  by_cases hc : c = 'n'
  · subst hc
    have hnull := eq_null_of_head h htight hhead
    subst hnull
    rfl
  · have hne : text ≠ "null".toList := by
      rintro rfl
      exact hc (List.cons.inj hhead).1.symm
    have htext : text = c :: cs := htight.skipBlanks_eq.symm.trans hhead
    have hverbatim : readVerbatim limit (c :: (cs ++ t)) = .ok (String.ofList text, t) := by
      -- The reader skips blanks again before it marks where the text begins, and there are none.
      have hwhole : skipBlanks (c :: (cs ++ t)) = text ++ t := by
        rw [← hskip, skipBlanks_skipBlanks, hskip, htext, List.cons_append]
      have hend := htight.skipValue_eq h hlimit ht
      simp only [readVerbatim, hwhole, hend, bind, Except.bind, List.length_append,
        Nat.add_sub_cancel, List.take_left]
      rfl
    rw [verbatim, option_of_ne _ hskip hc, keptText, if_neg hne]
    simp only [Decoder.verbatim, hverbatim, bind, Except.bind]
    rfl

/-! ## What is found -/

/-- What becomes of a field that may be filled already, by the values that are there for it: there
is at most one. -/
inductive Filled {α : Type} (holds : List Char → α → Prop) :
    Option α → List (List Char) → Option α → Prop where
  | kept (seen : Option α) : Filled holds seen [] seen
  | found {text : List Char} {a : α} (h : holds text a) : Filled holds none [text] (some a)

/-- A name is filled by the first text under it, and there must not be another one. -/
theorem filled_cons_iff {α : Type} {holds : List Char → α → Prop} {text : List Char}
    {texts : List (List Char)} {seen x : Option α} :
    Filled holds seen (text :: texts) x ↔
      seen = none ∧ ∃ a, holds text a ∧ Filled holds (some a) texts x := by
  constructor
  · intro h
    cases h with
    | found h => exact ⟨rfl, _, h, .kept _⟩
  · rintro ⟨rfl, a, ha, h⟩
    cases h
    exact .found ha

/-- There is at most one text under a name. -/
theorem Filled.length_le_one {α : Type} {holds : List Char → α → Prop}
    {texts : List (List Char)} {seen x : Option α} (h : Filled holds seen texts x) :
    texts.length ≤ 1 := by
  cases h
  · exact Nat.zero_le _
  · exact Nat.le_refl _

/-- A reader found a value in a text, with some text behind it. -/
def Found {α : Type} (f : List Char → Except Fault (α × List Char)) (text : List Char) (a : α) :
    Prop :=
  ∃ t gap, EndsNumber t ∧ Blanks gap ∧ f (text ++ t) = .ok (a, gap ++ t)

/-- Where a reader finds a value whatever follows, it found no other one. -/
theorem Found.eq {α : Type} {f : List Char → Except Fault (α × List Char)} {text : List Char}
    {a b : α} (h : Found f text a) (hreads : ReadsAs f text b) : a = b := by
  obtain ⟨t, gap, ht, -, ha⟩ := h
  obtain ⟨gap', -, hb⟩ := hreads t ht
  rw [hb] at ha
  exact (Prod.mk.inj (Except.ok.inj ha)).1.symm

/-! ## Between brackets -/

/-- The texts between two brackets, of which the first one is not yet, or already, read. -/
def between : Bool → List (List Char) → List Char
  | true, texts => commaSeparated texts
  | false, texts => texts.flatMap fun y => ',' :: y

theorem between_nil (first : Bool) : between first [] = [] := by
  cases first <;> rfl

end LooseRequest

end WsGateway
