import Std.Data.String.ToInt

/-!
# Decimal texts of numbers

What the decimal text of a number looks like character by character: digits, with a minus sign in
front of a negative number. A text in which a number is followed by another character can so be
cut behind the number, which is what every reader of such texts relies on.
-/

namespace WsGateway.Text

/-- A decimal text consists of digits, behind a minus sign if the number is negative. -/
theorem toList_intText (a : Int) :
    (toString a).toList =
      if 0 ≤ a then Nat.toDigits 10 a.toNat else '-' :: Nat.toDigits 10 (-a).toNat := by
  rw [Int.toString_eq_repr, Int.repr_eq_if]
  split
  · exact Nat.toList_repr
  · rw [String.toList_append, Nat.toList_repr]
    rfl

/-- The digits of a number other than zero do not begin with a zero. -/
theorem exists_cons_toDigits {n : Nat} (h : n ≠ 0) :
    ∃ c cs, Nat.toDigits 10 n = c :: cs ∧ c ≠ '0' := by
  induction n using Nat.base_induction 10 (by decide) with
  | single m hm =>
    refine ⟨m.digitChar, [], Nat.toDigits_of_lt_base hm, ?_⟩
    rwa [Ne, Nat.digitChar_eq_zero]
  | digit m k hk hm ih =>
    obtain ⟨c, cs, hcs, hc⟩ := ih (by omega)
    refine ⟨c, cs ++ Nat.toDigits 10 k, ?_, hc⟩
    rw [← Nat.toDigits_append_toDigits (by decide) hm hk, hcs]
    rfl

/-- A printed number consists of digits. -/
theorem isDigit_of_mem_natText {n : Nat} {c : Char} (h : c ∈ (toString n).toList) :
    c.isDigit = true := by
  rw [Nat.toString_eq_repr, Nat.toList_repr] at h
  exact Nat.isDigit_of_mem_toDigits (by decide) (by decide) h

theorem comma_notMem_natText (n : Nat) : ',' ∉ (toString n).toList := by
  intro h
  exact absurd (isDigit_of_mem_natText h) (by decide)

/-- Nothing but digits and the sign stands in a decimal text. -/
theorem notMem_intText (a : Int) {c : Char} (hdigit : c.isDigit = false) (hsign : c ≠ '-') :
    c ∉ (toString a).toList := by
  have hdigits : ∀ n, c ∉ Nat.toDigits 10 n := by
    intro n h
    have hc := Nat.isDigit_of_mem_toDigits (by decide) (by decide) h
    exact absurd (hdigit.symm.trans hc) Bool.false_ne_true
  rw [toList_intText]
  split
  · exact hdigits _
  · rw [List.mem_cons]
    rintro (h | h)
    · exact hsign h
    · exact hdigits _ h

theorem comma_notMem_intText (a : Int) : ',' ∉ (toString a).toList :=
  notMem_intText a rfl (by decide)

/-- A list is cut at the first place where a character stands. -/
theorem append_cons_inj {xs ys s t : List Char} {c : Char} (hx : c ∉ xs) (hy : c ∉ ys)
    (h : xs ++ c :: s = ys ++ c :: t) : xs = ys ∧ s = t := by
  induction xs generalizing ys with
  | nil =>
    cases ys with
    | nil => exact ⟨rfl, (List.cons.inj h).2⟩
    | cons y ys => exact absurd (List.cons.inj h).1 fun hc => hy (hc ▸ List.mem_cons_self)
  | cons x xs ih =>
    cases ys with
    | nil => exact absurd (List.cons.inj h).1 fun hc => hx (hc ▸ List.mem_cons_self)
    | cons y ys =>
      obtain ⟨rfl, htail⟩ := List.cons.inj h
      obtain ⟨rfl, rfl⟩ := ih (fun hm => hx (List.mem_cons_of_mem _ hm))
        (fun hm => hy (List.mem_cons_of_mem _ hm)) htail
      exact ⟨rfl, rfl⟩

end WsGateway.Text
