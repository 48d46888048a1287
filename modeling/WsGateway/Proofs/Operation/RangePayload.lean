import WsGateway.Operation.Builtin
import WsGateway.Proofs.Json.Locality.Nested

/-!
# The payload of `range`

The payload is a record with one field, which is read by hand so that its errors can name the
field. What it comes to is said here in terms of the general readers: an object that is written
with the one member `count`, or a list of one element (`decode_eq_ok_iff`). Both readers visit the
same places in the text, so that the two are compared step by step.
-/

namespace WsGateway

open Json

namespace Range

variable {limit depth n : Nat} {s rest : List Char} {count : Int}

/-! ## The two ways to write the record -/

/-- The record as a list is a list of one number. -/
theorem readElement_eq_ok_iff :
    readElement limit depth s = .ok (count, rest) ↔
      readElements (Decoder.uint64 limit depth) (n + 2) true s = .ok ([count], rest) := by
  rw [readElements_cons_iff]
  simp only [readElements_nil_iff, ← endFields_eq_ok_iff]
  unfold readElement
  rw [bind_eq_ok]
  constructor
  · rintro ⟨step, hstep, h⟩
    cases step with
    | done rest' => cases h
    | item s₁ =>
      obtain ⟨⟨count', s₂⟩, hcount, h⟩ := bind_eq_ok.mp h
      obtain ⟨rest', hend, h⟩ := bind_eq_ok.mp h
      cases h
      exact ⟨s₁, s₂, hstep, hcount, hend⟩
  · rintro ⟨s₁, s₂, hstep, hcount, hend⟩
    exact ⟨_, hstep, bind_eq_ok.mpr ⟨_, hcount, bind_eq_ok.mpr ⟨_, hend, rfl⟩⟩⟩

/-- A fault in a field is a failure of the whole. -/
theorem fieldFault_ne_ok {α : Type} {cause : Cause} {closing : Char} {a : α} :
    fieldFault cause closing s ≠ .ok a := by
  unfold fieldFault
  exact fun h => by cases h

/-- Behind the one member nothing but the end of the record is accepted. -/
theorem readMembers_some_iff {seen : Int} :
    Range.readMembers limit depth (n + 1) false (some seen) s = .ok (count, rest) ↔
      count = seen ∧ nextMember false s = .ok (.done rest) := by
  rw [Range.readMembers, bind_eq_ok]
  constructor
  · rintro ⟨step, hstep, h⟩
    cases step with
    | done rest' =>
      cases h
      exact ⟨rfl, hstep⟩
    | item s₁ =>
      obtain ⟨⟨key, s₂⟩, -, h⟩ := bind_eq_ok.mp h
      -- another member is not known, and the same one is a duplicate
      dsimp only at h
      split at h
      · exact absurd h fieldFault_ne_ok
      · exact absurd h fieldFault_ne_ok
  · rintro ⟨rfl, hstep⟩
    exact ⟨_, hstep, rfl⟩

/-- The record as an object is an object that is written with the one member. -/
theorem readMembers_eq_ok_iff :
    Range.readMembers limit depth (n + 2) true none s = .ok (count, rest) ↔
      Json.readMembers limit (Decoder.uint64 limit depth) (n + 2) true s =
        .ok ([(fieldName, count)], rest) := by
  rw [readMembers_cons_iff]
  simp only [readMembers_nil_iff]
  rw [Range.readMembers, bind_eq_ok]
  constructor
  · rintro ⟨step, hstep, h⟩
    cases step with
    | done rest' => cases h
    | item s₁ =>
      obtain ⟨⟨key, s₂⟩, hkey, h⟩ := bind_eq_ok.mp h
      dsimp only at h
      -- The first name has to be the field's; a further name of whatever kind is refused.
      split at h
      · exact absurd h fieldFault_ne_ok
      · next hname =>
        rw [if_neg (by simp)] at h
        obtain ⟨s₃, hcolon, h⟩ := bind_eq_ok.mp h
        obtain ⟨⟨count', s₄⟩, hcount, h⟩ := bind_eq_ok.mp h
        obtain ⟨rfl, hend⟩ := readMembers_some_iff.mp h
        rw [not_not.mp hname] at hkey
        exact ⟨s₁, s₂, s₃, s₄, hstep, hkey, hcolon, hcount, hend⟩
  · rintro ⟨s₁, s₂, s₃, s₄, hstep, hkey, hcolon, hcount, hend⟩
    refine ⟨_, hstep, bind_eq_ok.mpr ⟨_, hkey, ?_⟩⟩
    dsimp only
    rw [if_neg (by simp), if_neg (by simp)]
    exact bind_eq_ok.mpr ⟨_, hcolon, bind_eq_ok.mpr ⟨_, hcount,
      readMembers_some_iff.mpr ⟨rfl, hend⟩⟩⟩

/-! ## The whole payload -/

/-- What a reader of integers accepts is within its bounds. -/
theorem integer_bounds {expected : String} {low high k : Int}
    (h : Decoder.integer expected low high limit depth s = .ok (k, rest)) :
    low ≤ k ∧ k < high := by
  unfold Decoder.integer at h
  split at h
  · split at h
    · obtain ⟨⟨x, rest'⟩, -, h⟩ := bind_eq_ok.mp h
      cases x with
      | float x => cases h
      | int k' fits =>
        dsimp only at h
        split at h
        · next hbounds =>
          cases h
          exact hbounds
        · cases h
    · exact absurd h (refuse_ne_ok _ _ _ _)
  · exact absurd h (refuse_ne_ok _ _ _ _)

theorem length_pos_of_skipBlanks {c : Char} {s' : List Char} (h : skipBlanks s = c :: s') :
    0 < s.length := by
  cases s with
  | nil => cases h
  | cons c s => exact Nat.succ_pos _

/-- The record is read where an object with the one member, or a list of one number, is. -/
theorem decoder_eq_ok_iff (s rest : List Char) (count : Int) :
    decoder s.length (depth + 1) s = .ok (count, rest) ↔
      Decoder.members Decoder.uint64 s.length (depth + 1) s = .ok ([(fieldName, count)], rest) ∨
        Decoder.list Decoder.uint64 s.length (depth + 1) s = .ok ([count], rest) := by
  -- only an opening bracket is not refused, and then there is fuel for two rounds
  have hfuel : ∀ {c s'}, skipBlanks s = c :: s' → ∃ n, s.length + 1 = n + 2 := fun h =>
    ⟨s.length - 1, by have := length_pos_of_skipBlanks h; omega⟩
  unfold decoder Decoder.members Decoder.list
  split
  · next s' h =>
    obtain ⟨n, hn⟩ := hfuel h
    rw [h]
    show Range.readMembers s.length depth (s.length + 1) true none s' = _ ↔
      Json.readMembers s.length _ (s.length + 1) true s' = _ ∨ refuse _ _ _ = _
    rw [hn, readMembers_eq_ok_iff, or_iff_left (refuse_ne_ok _ _ _ _)]
  · next s' h =>
    obtain ⟨n, hn⟩ := hfuel h
    rw [h]
    show readElement s.length depth s' = _ ↔
      refuse _ _ _ = _ ∨ Json.readElements _ (s.length + 1) true s' = _
    rw [hn, readElement_eq_ok_iff, or_iff_right (refuse_ne_ok _ _ _ _)]
  · next hobject hlist =>
    constructor
    · exact fun h => absurd h (refuse_ne_ok _ _ _ _)
    · rintro (h | h)
      · split at h
        · next s' heq => exact absurd heq (hobject s')
        · exact absurd h (refuse_ne_ok _ _ _ _)
      · split at h
        · next s' heq => exact absurd heq (hlist s')
        · exact absurd h (refuse_ne_ok _ _ _ _)

/-- **What `range` is asked for.** The payload decodes exactly if it is an object that is written
with the one member `count`, or a list of one element; and then to that number of 64 bits. -/
theorem decode_eq_ok_iff (text : String) (count : Int) :
    decode decoder text = .ok count ↔
      decode (Decoder.members Decoder.uint64) text = .ok [(fieldName, count)] ∨
        decode (Decoder.list Decoder.uint64) text = .ok [count] := by
  unfold decode
  simp only [readAll_eq_ok_iff]
  show (∃ rest, decoder _ (126 + 1) _ = _ ∧ _) ↔
    (∃ rest, Decoder.members _ _ (126 + 1) _ = _ ∧ _) ∨
      ∃ rest, Decoder.list _ _ (126 + 1) _ = _ ∧ _
  simp only [decoder_eq_ok_iff, or_and_right, exists_or]

/-- A count has 64 bits and no sign. -/
theorem decode_bounds {text : String} {count : Int} (h : decode decoder text = .ok count) :
    0 ≤ count ∧ count < 18446744073709551616 := by
  rcases (decode_eq_ok_iff text count).mp h with h | h
  · obtain ⟨rest, hread, -⟩ := readAll_eq_ok_iff.mp h
    unfold Decoder.members at hread
    split at hread
    · obtain ⟨_, _, _, _, -, -, -, hcount, -⟩ := readMembers_cons_iff.mp hread
      exact integer_bounds hcount
    · exact absurd hread (refuse_ne_ok _ _ _ _)
  · obtain ⟨rest, hread, -⟩ := readAll_eq_ok_iff.mp h
    unfold Decoder.list at hread
    split at hread
    · obtain ⟨_, _, -, hcount, -⟩ := readElements_cons_iff.mp hread
      exact integer_bounds hcount
    · exact absurd hread (refuse_ne_ok _ _ _ _)

end Range

end WsGateway
