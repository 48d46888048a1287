import WsGateway.Json.Parse
import WsGateway.Json.Skip

/-!
# Readers come apart

A reader that succeeds has gone through its parts one after another, and each of them succeeded
(`bind_eq_ok`). Here this is said once for the readers that repeat themselves, whose first step
decides whether there is another item, and for embedded texts. Each statement is an equivalence, so
that a proof about two readers takes one of them apart and puts the other one together.
-/

namespace WsGateway.Json

/-- A step and what follows it succeed just if both do. -/
theorem bind_eq_ok {ε α β : Type} {x : Except ε α} {f : α → Except ε β} {b : β} :
    (x >>= f) = .ok b ↔ ∃ a, x = .ok a ∧ f a = .ok b := by
  cases x <;> simp [bind, Except.bind]

/-- A word is read just where it stands. -/
theorem readWord_eq_ok_iff {w s r : List Char} : readWord w s = .ok r ↔ s = w ++ r := by
  induction w generalizing s with
  | nil => exact ⟨Except.ok.inj, congrArg Except.ok⟩
  | cons c w ih =>
    cases s with
    | nil => exact iff_of_false nofun nofun
    | cons c' s =>
      rw [readWord, List.cons_append, List.cons.injEq]
      split
      · next hc => rw [ih, and_iff_right hc.symm]
      · next hc => exact iff_of_false nofun fun h => hc h.1.symm

theorem readColon_eq_ok_iff {s r : List Char} :
    readColon s = .ok r ↔ skipBlanks s = ':' :: r := by
  unfold readColon
  cases skipBlanks s with
  | nil => exact iff_of_false nofun nofun
  | cons c s' =>
    rw [List.cons.injEq]
    dsimp only
    split
    · next hc => exact ⟨fun h => ⟨hc, Except.ok.inj h⟩, fun h => congrArg Except.ok h.2⟩
    · next hc => exact iff_of_false nofun fun h => hc h.1

theorem endMembers_eq_ok_iff {s r : List Char} :
    endMembers s = .ok r ↔ skipBlanks s = '\x7d' :: r := by
  unfold endMembers
  cases skipBlanks s with
  | nil => exact iff_of_false nofun nofun
  | cons c s' =>
    rw [List.cons.injEq]
    dsimp only
    split
    · next hc => exact ⟨fun h => ⟨hc, Except.ok.inj h⟩, fun h => congrArg Except.ok h.2⟩
    · next hc =>
      refine iff_of_false ?_ fun h => hc h.1
      split <;> nofun

/-! ## The items of lists and objects -/

section Items

variable {α : Type} {f : List Char → Except Fault (α × List Char)} {limit n : Nat} {first : Bool}
  {s rest : List Char}

theorem readElements_nil_iff :
    readElements f (n + 1) first s = .ok ([], rest) ↔ nextElement first s = .ok (.done rest) := by
  rw [readElements, bind_eq_ok]
  constructor
  · rintro ⟨step, hstep, h⟩
    cases step with
    | done rest' =>
      cases h
      exact hstep
    | item rest' =>
      obtain ⟨_, -, h⟩ := bind_eq_ok.mp h
      obtain ⟨_, -, h⟩ := bind_eq_ok.mp h
      cases h
  · exact fun hstep => ⟨_, hstep, rfl⟩

/-- Elements are read just if the first one is and then the others are. -/
theorem readElements_cons_iff {a : α} {as : List α} :
    readElements f (n + 1) first s = .ok (a :: as, rest) ↔
      ∃ s₁ s₂, nextElement first s = .ok (.item s₁) ∧ f s₁ = .ok (a, s₂) ∧
        readElements f n false s₂ = .ok (as, rest) := by
  rw [readElements, bind_eq_ok]
  constructor
  · rintro ⟨step, hstep, h⟩
    cases step with
    | done rest' => cases h
    | item s₁ =>
      obtain ⟨⟨a', s₂⟩, ha, h⟩ := bind_eq_ok.mp h
      obtain ⟨⟨as', rest'⟩, has, h⟩ := bind_eq_ok.mp h
      cases h
      exact ⟨s₁, s₂, hstep, ha, has⟩
  · rintro ⟨s₁, s₂, hstep, ha, has⟩
    exact ⟨_, hstep, bind_eq_ok.mpr ⟨_, ha, bind_eq_ok.mpr ⟨_, has, rfl⟩⟩⟩

theorem readMembers_nil_iff :
    readMembers limit f (n + 1) first s = .ok ([], rest) ↔
      nextMember first s = .ok (.done rest) := by
  rw [readMembers, bind_eq_ok]
  constructor
  · rintro ⟨step, hstep, h⟩
    cases step with
    | done rest' =>
      cases h
      exact hstep
    | item rest' =>
      obtain ⟨_, -, h⟩ := bind_eq_ok.mp h
      obtain ⟨_, -, h⟩ := bind_eq_ok.mp h
      obtain ⟨_, -, h⟩ := bind_eq_ok.mp h
      obtain ⟨_, -, h⟩ := bind_eq_ok.mp h
      cases h
  · exact fun hstep => ⟨_, hstep, rfl⟩

/-- Members are read just if the name, the colon and the value of the first one are and then the
others are. -/
theorem readMembers_cons_iff {key : String} {a : α} {as : List (String × α)} :
    readMembers limit f (n + 1) first s = .ok ((key, a) :: as, rest) ↔
      ∃ s₁ s₂ s₃ s₄, nextMember first s = .ok (.item s₁) ∧
        readString limit s₁ = .ok (key, s₂) ∧ readColon s₂ = .ok s₃ ∧ f s₃ = .ok (a, s₄) ∧
        readMembers limit f n false s₄ = .ok (as, rest) := by
  rw [readMembers, bind_eq_ok]
  constructor
  · rintro ⟨step, hstep, h⟩
    cases step with
    | done rest' => cases h
    | item s₁ =>
      obtain ⟨⟨key', s₂⟩, hkey, h⟩ := bind_eq_ok.mp h
      obtain ⟨s₃, hcolon, h⟩ := bind_eq_ok.mp h
      obtain ⟨⟨a', s₄⟩, ha, h⟩ := bind_eq_ok.mp h
      obtain ⟨⟨as', rest'⟩, has, h⟩ := bind_eq_ok.mp h
      cases h
      exact ⟨s₁, s₂, s₃, s₄, hstep, hkey, hcolon, ha, has⟩
  · rintro ⟨s₁, s₂, s₃, s₄, hstep, hkey, hcolon, ha, has⟩
    exact ⟨_, hstep, bind_eq_ok.mpr ⟨_, hkey, bind_eq_ok.mpr ⟨_, hcolon,
      bind_eq_ok.mpr ⟨_, ha, bind_eq_ok.mpr ⟨_, has, rfl⟩⟩⟩⟩⟩

end Items

/-! ## The items that are passed over -/

section Passed

variable {skip : List Char → Except Fault (List Char)} {limit n : Nat} {first : Bool}
  {s rest : List Char}

/-- One round of the skipper of elements: the end, or an element and the rest. -/
theorem skipElements_succ_iff :
    skipElements skip (n + 1) first s = .ok rest ↔
      skipToElement first s = .ok (.done rest) ∨
        ∃ s₁ s₂, skipToElement first s = .ok (.item s₁) ∧ skip s₁ = .ok s₂ ∧
          skipElements skip n false s₂ = .ok rest := by
  rw [skipElements, bind_eq_ok]
  constructor
  · rintro ⟨step, hstep, h⟩
    cases step with
    | done rest' =>
      cases h
      exact .inl hstep
    | item s₁ =>
      obtain ⟨s₂, hitem, h⟩ := bind_eq_ok.mp h
      exact .inr ⟨s₁, s₂, hstep, hitem, h⟩
  · rintro (hstep | ⟨s₁, s₂, hstep, hitem, hrest⟩)
    · exact ⟨_, hstep, rfl⟩
    · exact ⟨_, hstep, bind_eq_ok.mpr ⟨_, hitem, hrest⟩⟩

/-- One round of the skipper of members: the end, or a member and the rest. -/
theorem skipMembers_succ_iff :
    skipMembers limit skip (n + 1) first s = .ok rest ↔
      skipToMember first s = .ok (.done rest) ∨
        ∃ s₁ s₂ s₃ s₄, skipToMember first s = .ok (.item s₁) ∧ skipString limit s₁ = .ok s₂ ∧
          readColon s₂ = .ok s₃ ∧ skip s₃ = .ok s₄ ∧
          skipMembers limit skip n false s₄ = .ok rest := by
  rw [skipMembers, bind_eq_ok]
  constructor
  · rintro ⟨step, hstep, h⟩
    cases step with
    | done rest' =>
      cases h
      exact .inl hstep
    | item s₁ =>
      obtain ⟨s₂, hname, h⟩ := bind_eq_ok.mp h
      obtain ⟨s₃, hcolon, h⟩ := bind_eq_ok.mp h
      obtain ⟨s₄, hvalue, h⟩ := bind_eq_ok.mp h
      exact .inr ⟨s₁, s₂, s₃, s₄, hstep, hname, hcolon, hvalue, h⟩
  · rintro (hstep | ⟨s₁, s₂, s₃, s₄, hstep, hname, hcolon, hvalue, hrest⟩)
    · exact ⟨_, hstep, rfl⟩
    · exact ⟨_, hstep, bind_eq_ok.mpr ⟨_, hname, bind_eq_ok.mpr ⟨_, hcolon,
        bind_eq_ok.mpr ⟨_, hvalue, hrest⟩⟩⟩⟩

end Passed

/-! ## Embedded texts -/

/-- An embedded value is read from the text of a string, and no further member may follow it. -/
theorem readEmbedded_eq_ok_iff {parse : String → Except String Value} {limit : Nat}
    {s rest : List Char} {v : Value} :
    readEmbedded parse limit s = .ok (v, rest) ↔
      ∃ s₁ text s₂, readColon s = .ok s₁ ∧ readText "raw value" limit s₁ = .ok (text, s₂) ∧
        parse text = .ok v ∧ endMembers s₂ = .ok rest := by
  rw [readEmbedded, bind_eq_ok]
  constructor
  · rintro ⟨s₁, hcolon, h⟩
    obtain ⟨⟨text, s₂⟩, htext, h⟩ := bind_eq_ok.mp h
    dsimp only at h
    split at h
    · cases h
    · next w hw =>
      obtain ⟨s₃, hend, h⟩ := bind_eq_ok.mp h
      cases h
      exact ⟨s₁, text, s₂, hcolon, htext, hw, hend⟩
  · rintro ⟨s₁, text, s₂, hcolon, htext, hparse, hend⟩
    refine ⟨s₁, hcolon, bind_eq_ok.mpr ⟨(text, s₂), htext, ?_⟩⟩
    dsimp only
    rw [hparse]
    exact bind_eq_ok.mpr ⟨_, hend, rfl⟩

end WsGateway.Json
