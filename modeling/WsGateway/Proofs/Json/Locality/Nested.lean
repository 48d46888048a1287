import WsGateway.Json.Decoder
import WsGateway.Proofs.Json.Heads
import WsGateway.Proofs.Json.Locality.Scalars

/-!
# Reading values does not look ahead

A value that was read in a text of its own is read in the same way inside a longer text
(`readValue_append`), which is how values that were encoded on their own can be put together. The
readers of lists, objects and embedded texts extend as far as the readers of their parts do, and the
whole is an induction on the nesting that is left.
-/

namespace WsGateway.Json

/-! ## Lists and objects -/

def Step.append (t : List Char) : Step → Step
  | .item rest => .item (rest ++ t)
  | .done rest => .done (rest ++ t)

/-- Whether there is a next element does not depend on what follows the text. -/
theorem nextElement_append {first : Bool} {s : List Char} {step : Step}
    (h : nextElement first s = .ok step) (t : List Char) :
    nextElement first (s ++ t) = .ok (step.append t) := by
  rw [nextElement] at h ⊢
  cases hs : skipBlanks s with
  | nil =>
    rw [hs] at h
    cases h
  | cons c s' =>
    rw [hs] at h
    rw [skipBlanks_append hs]
    dsimp only at h ⊢
    -- the character is the same in the longer text, so that both readers take the same branch
    by_cases hclose : c = ']'
    · rw [if_pos hclose] at h ⊢
      cases h
      rfl
    rw [if_neg hclose] at h ⊢
    cases first with
    | true =>
      rw [if_pos rfl] at h ⊢
      cases h
      rfl
    | false =>
      rw [if_neg (by decide)] at h ⊢
      by_cases hcomma : c = ','
      · rw [if_pos hcomma] at h ⊢
        cases hs' : skipBlanks s' with
        | nil =>
          rw [hs'] at h
          cases h
        | cons d s₂ =>
          rw [hs'] at h
          rw [skipBlanks_append hs']
          dsimp only at h ⊢
          split at h
          · cases h
          · next hd =>
            rw [if_neg hd]
            cases h
            rfl
      · rw [if_neg hcomma] at h
        cases h

/-- Whether there is a next member does not depend on what follows the text. -/
theorem nextMember_append {first : Bool} {s : List Char} {step : Step}
    (h : nextMember first s = .ok step) (t : List Char) :
    nextMember first (s ++ t) = .ok (step.append t) := by
  rw [nextMember] at h ⊢
  cases hs : skipBlanks s with
  | nil =>
    rw [hs] at h
    cases h
  | cons c s' =>
    rw [hs] at h
    rw [skipBlanks_append hs]
    dsimp only at h ⊢
    -- The step is decided by one character, or by two behind a comma, and none of them is in `t`.
    by_cases hclose : c = '\x7d'
    · rw [if_pos hclose] at h ⊢
      cases h
      rfl
    rw [if_neg hclose] at h ⊢
    cases first with
    | true =>
      rw [if_pos rfl] at h ⊢
      split at h
      · next hquote =>
        rw [if_pos hquote]
        cases h
        rfl
      · cases h
    | false =>
      rw [if_neg (by decide)] at h ⊢
      by_cases hcomma : c = ','
      · rw [if_pos hcomma] at h ⊢
        cases hs' : skipBlanks s' with
        | nil =>
          rw [hs'] at h
          cases h
        | cons d s₂ =>
          rw [hs'] at h
          rw [skipBlanks_append hs']
          dsimp only at h ⊢
          split at h
          · next hquote =>
            rw [if_pos hquote]
            cases h
            rfl
          · split at h <;> cases h
      · rw [if_neg hcomma] at h
        cases h

theorem readColon_append {s r : List Char} (h : readColon s = .ok r) (t : List Char) :
    readColon (s ++ t) = .ok (r ++ t) :=
  readColon_eq_ok_iff.mpr (skipBlanks_append (readColon_eq_ok_iff.mp h) t)

theorem endMembers_append {s r : List Char} (h : endMembers s = .ok r) (t : List Char) :
    endMembers (s ++ t) = .ok (r ++ t) :=
  endMembers_eq_ok_iff.mpr (skipBlanks_append (endMembers_eq_ok_iff.mp h) t)

section Items

variable {α : Type} {t : List Char} {f g : List Char → Except Fault (α × List Char)}

/-- If one element is read alike with more behind it, so are the elements. -/
theorem readElements_append (hfg : Extends t f g) {n m : Nat} (hn : n ≤ m) (first : Bool) :
    Extends t (readElements f n first) (readElements g m first) := by
  intro s as r h
  induction n generalizing m first s as r with
  | zero => cases h
  | succ n ih =>
    obtain ⟨m, rfl⟩ : ∃ k, m = k + 1 := ⟨m - 1, by omega⟩
    cases as with
    | nil => exact readElements_nil_iff.mpr (nextElement_append (readElements_nil_iff.mp h) t)
    | cons a as =>
      obtain ⟨s₁, s₂, hstep, ha, has⟩ := readElements_cons_iff.mp h
      exact readElements_cons_iff.mpr
        ⟨_, _, nextElement_append hstep t, hfg ha, ih (by omega) false has⟩

/-- If one value is read alike with more behind it, so are the members. -/
theorem readMembers_append (hfg : Extends t f g) {limit limit' : Nat} (hlimit : limit ≤ limit')
    {n m : Nat} (hn : n ≤ m) (first : Bool) :
    Extends t (readMembers limit f n first) (readMembers limit' g m first) := by
  intro s as r h
  induction n generalizing m first s as r with
  | zero => cases h
  | succ n ih =>
    obtain ⟨m, rfl⟩ : ∃ k, m = k + 1 := ⟨m - 1, by omega⟩
    cases as with
    | nil => exact readMembers_nil_iff.mpr (nextMember_append (readMembers_nil_iff.mp h) t)
    | cons member as =>
      obtain ⟨key, a⟩ := member
      obtain ⟨s₁, s₂, s₃, s₄, hstep, hkey, hcolon, ha, has⟩ := readMembers_cons_iff.mp h
      exact readMembers_cons_iff.mpr
        ⟨_, _, _, _, nextMember_append hstep t, readString_append hlimit t hkey,
          readColon_append hcolon t, hfg ha, ih (by omega) false has⟩

end Items

/-! ## Embedded texts -/

/-- A value of the wrong kind is refused whatever it is. -/
theorem refuse_ne_ok {α : Type} (expected : String) (limit : Nat) (s : List Char)
    (a : α × List Char) : refuse expected limit s ≠ .ok a := by
  intro h
  have hbind : ∀ {β : Type} {x : Except Fault β} {f : β → Fault},
      (x >>= fun b => .error (f b)) ≠ Except.ok a := by
    intro β x f hx
    obtain ⟨b, -, hb⟩ := bind_eq_ok.mp hx
    cases hb
  simp only [refuse] at h
  split at h
  · cases h
  · exact hbind h
  · exact hbind h
  · exact hbind h
  · exact hbind h
  · cases h
  · cases h
  · split at h
    · exact hbind h
    · cases h

theorem readText_append {limit limit' : Nat} (hlimit : limit ≤ limit') (expected : String)
    (t : List Char) : Extends t (readText expected limit) (readText expected limit') := by
  intro s a r h
  rw [readText] at h ⊢
  split at h
  · next s' hs =>
    rw [skipBlanks_append hs]
    exact readString_append hlimit t h
  · exact absurd h (refuse_ne_ok _ _ _ _)

/-- Every text that `parse` reads is read in the same way by `parse'`. -/
def ParsesMore (parse parse' : String → Except String Value) : Prop :=
  ∀ ⦃text v⦄, parse text = .ok v → parse' text = .ok v

section Embedded

variable {parse parse' : String → Except String Value} (hparse : ParsesMore parse parse')
  {limit limit' : Nat} (hlimit : limit ≤ limit') {t : List Char}

include hlimit in
theorem afterEmbeddingName?_append {s r : List Char}
    (h : afterEmbeddingName? limit s = some r) (t : List Char) :
    afterEmbeddingName? limit' (s ++ t) = some (r ++ t) := by
  rw [afterEmbeddingName?] at h ⊢
  split at h
  · next rest hstep =>
    rw [nextMember_append hstep]
    split at h
    · next name rest' hname =>
      simp only [Step.append, readString_append hlimit t hname]
      split at h
      · next heq =>
        rw [if_pos heq]
        cases h
        rfl
      · cases h
    · cases h
  · cases h

include hlimit in
/-- An object that was read as one does not become an embedded text. -/
theorem afterEmbeddingName?_append_eq_none {α : Type}
    {item : List Char → Except Fault (α × List Char)}
    {n : Nat} {s : List Char} {members : List (String × α) × List Char}
    (h : afterEmbeddingName? limit s = none)
    (hmembers : readMembers limit item n true s = .ok members)
    (t : List Char) : afterEmbeddingName? limit' (s ++ t) = none := by
  obtain ⟨members, rest⟩ := members
  cases n with
  | zero => cases hmembers
  | succ n =>
    -- That the first name is not the reserved one was decided by a name that was read, or by a
    -- brace.
    cases members with
    | nil => rw [afterEmbeddingName?, nextMember_append (readMembers_nil_iff.mp hmembers)]; rfl
    | cons member members =>
      obtain ⟨key, a⟩ := member
      obtain ⟨s₁, s₂, -, -, hstep, hkey, -⟩ := readMembers_cons_iff.mp hmembers
      rw [afterEmbeddingName?, nextMember_append hstep]
      simp only [Step.append, readString_append hlimit t hkey]
      rw [afterEmbeddingName?, hstep] at h
      simp only [hkey] at h
      split at h
      · cases h
      · next hne => rw [if_neg hne]

include hparse hlimit in
theorem readEmbedded_append (t : List Char) :
    Extends t (readEmbedded parse limit) (readEmbedded parse' limit') := by
  intro s v r h
  obtain ⟨s₁, text, s₂, hcolon, htext, hv, hend⟩ := readEmbedded_eq_ok_iff.mp h
  exact readEmbedded_eq_ok_iff.mpr
    ⟨_, text, _, readColon_append hcolon t, readText_append hlimit _ t htext, hparse hv,
      endMembers_append hend t⟩

end Embedded

/-! ## Values -/

/-- **A value is read in front of anything as it is read alone**, with at least as many
repetitions and a parser that reads at least as many embedded texts. By induction on the nesting
that is left. -/
theorem readValueWith_append {parse parse' : String → Except String Value}
    (hparse : ParsesMore parse parse') {limit limit' : Nat} (hlimit : limit ≤ limit')
    {t : List Char} (ht : EndsNumber t) (depth : Nat) :
    Extends t (readValueWith parse limit depth) (readValueWith parse' limit' depth) := by
  induction depth using Nat.strongRecOn with
  | ind depth ih =>
    intro s v r h
    have hreads := readValueWith_eq_ok_iff.mp h
    rw [readValueWith_eq_ok_iff]
    generalize hs : skipBlanks s = text at hreads
    cases hreads with
    | null hword =>
      rw [skipBlanks_append hs]
      exact .null (readWord_append hword t)
    | true hword =>
      rw [skipBlanks_append hs]
      exact .true (readWord_append hword t)
    | false hword =>
      rw [skipBlanks_append hs]
      exact .false (readWord_append hword t)
    | string htext =>
      rw [skipBlanks_append hs]
      exact .string (readString_append hlimit t htext)
    | @array depth _ _ _ hitems =>
      rw [skipBlanks_append hs]
      -- the repetitions are bounded by the length of the text, which is no smaller now
      exact .array (readElements_append (ih depth (Nat.lt_succ_self depth)) (by omega) true hitems)
    | embedded hname hembedded =>
      rw [skipBlanks_append hs]
      exact .embedded (afterEmbeddingName?_append hlimit hname t)
        (readEmbedded_append hparse hlimit t hembedded)
    | @object depth _ _ _ hname hmembers =>
      rw [skipBlanks_append hs]
      -- what follows an object does not make it an embedded text
      exact .object (afterEmbeddingName?_append_eq_none hlimit hname hmembers t)
        (readMembers_append (ih depth (Nat.lt_succ_self depth)) hlimit (by omega) true hmembers)
    | number hc hn =>
      rw [skipBlanks_append hs]
      exact .number hc (readNumber_append ht hn)

/-- A text that is parsed with some embedding is parsed in the same way with more. -/
theorem parseEmbedded_mono {n m : Nat} (h : n ≤ m) :
    ParsesMore (parseEmbedded n) (parseEmbedded m) := by
  induction n generalizing m with
  | zero =>
    intro text v hv
    cases hv
  | succ n ih =>
    obtain ⟨m, rfl⟩ : ∃ k, m = k + 1 := ⟨m - 1, by omega⟩
    intro text v hv
    rw [parseEmbedded] at hv ⊢
    split at hv
    · next v' hread =>
      cases hv
      rw [readAll, bind_eq_ok] at hread
      obtain ⟨⟨w, r⟩, hw, hread⟩ := hread
      -- reading in front of the empty text is reading the whole text
      have hmore := readValueWith_append (ih (by omega : n ≤ m)) (Nat.le_refl _) endsNumber_nil
        maxDepth hw
      rw [List.append_nil, List.append_nil] at hmore
      rw [readAll, hmore]
      simp only [bind, Except.bind] at hread ⊢
      rw [hread]
    · cases hv

/-- **A value is read inside a longer text as it is read alone.** -/
theorem readValue_append {limit limit' : Nat} (hlimit : limit ≤ limit') {t : List Char}
    (ht : EndsNumber t) (depth : Nat) :
    Extends t (readValue limit depth) (readValue limit' depth) :=
  readValueWith_append (parseEmbedded_mono hlimit) hlimit ht depth

/-! ## Whole texts, and the ends of records -/

/-- A whole text is read just if a value is and only blanks are left. -/
theorem readAll_eq_ok_iff {α : Type} {reader : Nat → List Char → Except Fault (α × List Char)}
    {text : List Char} {a : α} :
    readAll reader text = .ok a ↔
      ∃ rest, reader text.length text = .ok (a, rest) ∧ readEnd rest = .ok () := by
  unfold readAll
  rw [bind_eq_ok]
  constructor
  · rintro ⟨⟨a', rest⟩, hread, hrest⟩
    obtain ⟨u, hend, ha⟩ := bind_eq_ok.mp hrest
    cases ha
    exact ⟨rest, hread, hend⟩
  · rintro ⟨rest, hread, hend⟩
    exact ⟨(a, rest), hread, bind_eq_ok.mpr ⟨(), hend, rfl⟩⟩

/-- The end of a record written as a list is the end of a list that has no more elements. -/
theorem endFields_eq_ok_iff {s rest : List Char} :
    endFields s = .ok rest ↔ nextElement false s = .ok (.done rest) := by
  unfold endFields nextElement
  cases skipBlanks s with
  | nil => simp
  | cons c s =>
    by_cases hclose : c = ']'
    · simp [hclose]
    · by_cases hcomma : c = ','
      · -- a comma ends neither of them, whatever comes next
        subst hcomma
        simp only [hclose, if_false]
        cases skipBlanks s with
        | nil => simp
        | cons d s' => by_cases hd : d = ']' <;> simp [hd]
      · simp [hclose, hcomma]

end WsGateway.Json
