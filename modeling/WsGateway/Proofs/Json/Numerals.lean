import Mathlib.Tactic.Set
import WsGateway.Json.Skip
import WsGateway.Proofs.Text.Decimal

/-!
# Printed numbers

Every number is printed as a well-formed numeral (`exists_numeral`), so that it can be skipped
(`skipNumber_print`). A whole number of 64 bits is even read back as itself (`readNumber_print`).
What comes behind the number must not go on with it, which is all that `EndsNumber` says.
-/

namespace WsGateway.Json

/-- The text does not go on with a number that stands in front of it. -/
def EndsNumber (t : List Char) : Prop :=
  ∀ c ∈ t.head?, c.isDigit = false ∧ c ≠ '.' ∧ c ≠ 'e' ∧ c ≠ 'E'

theorem endsNumber_nil : EndsNumber [] := by simp [EndsNumber]

/-- What stands behind an item of a list or an object ends every number. -/
theorem endsNumber_cons {c : Char} (hc : c = ',' ∨ c = ']' ∨ c = '\x7d') (t : List Char) :
    EndsNumber (c :: t) := by
  intro d hd
  obtain rfl : c = d := Option.some.inj hd
  rcases hc with rfl | rfl | rfl <;> decide

/-- The digits before a point: a zero, or digits that do not begin with one. -/
inductive WholeDigits : List Char → Prop where
  | zero : WholeDigits ['0']
  | nonzero {c : Char} {cs : List Char} (hne : c ≠ '0') (hdigits : ∀ d ∈ c :: cs, d.isDigit) :
      WholeDigits (c :: cs)

namespace Numeral

def fractionText (digits : List Char) : List Char := if digits = [] then [] else '.' :: digits

def exponentText : Option (Bool × List Char) → List Char
  | none => []
  | some (negative, digits) => 'e' :: (if negative then '-' else '+') :: digits

def unsigned (t : Numeral) : List Char :=
  t.whole ++ (fractionText t.fraction ++ exponentText t.exponent)

def text (t : Numeral) : List Char := (if t.negative then ['-'] else []) ++ t.unsigned

/-- The parts of a numeral are as they can be read. -/
structure WellFormed (t : Numeral) : Prop where
  whole : WholeDigits t.whole
  fraction : ∀ c ∈ t.fraction, c.isDigit
  exponent : ∀ e ∈ t.exponent, e.2 ≠ [] ∧ ∀ c ∈ e.2, c.isDigit
  rest : EndsNumber t.rest

/-! ## Reading a numeral -/

/-- The digits end where no digit follows. -/
theorem spanDigits_append {ds t : List Char} (hds : ∀ d ∈ ds, d.isDigit)
    (ht : ∀ c ∈ t.head?, c.isDigit = false) : spanDigits (ds ++ t) = (ds, t) := by
  have htake : t.takeWhile Char.isDigit = [] := by
    cases t with
    | nil => rfl
    | cons c cs => simp [ht c (by simp)]
  have hdrop : t.dropWhile Char.isDigit = t := by
    cases t with
    | nil => rfl
    | cons c cs => simp [ht c (by simp)]
  rw [spanDigits, List.takeWhile_append_of_pos hds, List.dropWhile_append_of_pos hds, htake, hdrop,
    List.append_nil]

/-- The whole digits are read back, whatever follows that is no digit. -/
theorem readWhole_append {ds t : List Char} (hds : WholeDigits ds)
    (ht : ∀ c ∈ t.head?, c.isDigit = false) (atEnd : Cause) :
    readWhole atEnd (ds ++ t) = .ok (ds, t) := by
  cases hds with
  | zero =>
    cases t with
    | nil => rfl
    | cons c cs =>
      have hc : c.isDigit = false := ht c (by simp)
      simp [readWhole, hc]
  | @nonzero c cs hne hdigits =>
    have hc : c.isDigit = true := hdigits c List.mem_cons_self
    have hspan := spanDigits_append hdigits ht
    rw [List.cons_append] at hspan
    simp [readWhole, hne, hc, hspan]

theorem readFraction_of_ne {c : Char} (hc : c ≠ '.') (atEnd : Cause) (s : List Char) :
    readFraction atEnd (c :: s) = .ok ([], c :: s) := by
  simp [readFraction, hc]

/-- A fraction is read back. -/
theorem readFraction_append {ds t : List Char} (hds : ∀ d ∈ ds, d.isDigit)
    (ht : ∀ c ∈ t.head?, c.isDigit = false ∧ c ≠ '.') (atEnd : Cause) :
    readFraction atEnd (fractionText ds ++ t) = .ok (ds, t) := by
  cases ds with
  | nil =>
    cases t with
    | nil => rfl
    | cons c cs => exact readFraction_of_ne (ht c rfl).2 atEnd cs
  | cons d ds =>
    have hd : d.isDigit = true := hds d List.mem_cons_self
    have hspan := spanDigits_append hds fun c hc => (ht c hc).1
    rw [List.cons_append] at hspan
    simp [fractionText, readFraction, hd, hspan]

/-- An exponent is read back. -/
theorem readExponent_append (negative : Bool) {ds t : List Char} (hne : ds ≠ [])
    (hds : ∀ d ∈ ds, d.isDigit) (ht : ∀ c ∈ t.head?, c.isDigit = false) (atEnd : Cause) :
    readExponent atEnd ((if negative then '-' else '+') :: ds ++ t) = .ok ((negative, ds), t) := by
  cases ds with
  | nil => exact absurd rfl hne
  | cons d ds =>
    have hd : d.isDigit = true := hds d List.mem_cons_self
    have hspan := spanDigits_append hds ht
    rw [List.cons_append] at hspan
    cases negative <;> simp [readExponent, hd, hspan]

/-- A well-formed numeral is read back from behind its sign. -/
theorem read_unsigned {t : Numeral} (h : t.WellFormed) (atEnd : Cause) :
    read atEnd t.negative (t.unsigned ++ t.rest) = .ok t := by
  obtain ⟨negative, whole, fraction, exponent, rest⟩ := t
  obtain ⟨hwhole, hfraction, hexponent, hrest⟩ := h
  simp only at hwhole hfraction hexponent hrest
  -- the exponent begins with its letter, and the places with their point
  have hletter : ∀ c ∈ (exponentText exponent ++ rest).head?, c.isDigit = false ∧ c ≠ '.' := by
    intro c hc
    cases exponent with
    | none => exact ⟨(hrest c hc).1, (hrest c hc).2.1⟩
    | some e =>
      obtain rfl : 'e' = c := Option.some.inj hc
      decide
  have hpoint : ∀ c ∈ (fractionText fraction ++ (exponentText exponent ++ rest)).head?,
      c.isDigit = false := by
    intro c hc
    by_cases hnil : fraction = []
    · rw [fractionText, if_pos hnil, List.nil_append] at hc
      exact (hletter c hc).1
    · rw [fractionText, if_neg hnil] at hc
      obtain rfl : '.' = c := Option.some.inj hc
      decide
  simp only [unsigned, List.append_assoc, read, readWhole_append hwhole hpoint,
    readFraction_append hfraction hletter, bind, Except.bind]
  cases exponent with
  | none =>
    cases rest with
    | nil => rfl
    | cons c cs =>
      obtain ⟨-, -, he, hE⟩ := hrest c (by simp)
      simp [exponentText, he, hE, pure, Except.pure]
  | some e =>
    obtain ⟨down, digits⟩ := e
    obtain ⟨hne, hdigits⟩ := hexponent (down, digits) rfl
    have hexp := readExponent_append down hne hdigits (fun c hc => (hrest c hc).1) atEnd
    simp only [List.cons_append] at hexp
    simp [exponentText, hexp, pure, Except.pure]

/-! ## The value of a whole number -/

/-- Digits are taken in completely if the number that they spell stays below the bound. -/
theorem accumulate_eq {bound : Nat} (ds : List Char) (n : Nat)
    (h : Nat.ofDigitChars 10 ds n < bound) :
    accumulate bound n ds = (Nat.ofDigitChars 10 ds n, []) := by
  induction ds generalizing n with
  | nil => simp [accumulate]
  | cons d ds ih =>
    rw [Nat.ofDigitChars_cons, Nat.mul_comm] at h
    have hstep : n * 10 + (d.toNat - '0'.toNat) < bound := by
      rw [Nat.ofDigitChars_eq_ofDigitChars_zero] at h
      have hpow : 1 ≤ 10 ^ ds.length := Nat.one_le_pow _ _ (by decide)
      have hle := Nat.mul_le_mul_right (n * 10 + (d.toNat - '0'.toNat)) hpow
      omega
    rw [accumulate, if_pos hstep, ih _ h, Nat.ofDigitChars_cons, Nat.mul_comm 10]

/-- An integer is its sign and its magnitude. -/
theorem wholeNumber_natAbs (k : Int)
    (fits : -9223372036854775808 ≤ k ∧ k < 18446744073709551616) :
    wholeNumber (decide (k < 0)) k.natAbs = .int k fits := by
  have hk : (if (decide (k < 0)) = true then -(k.natAbs : Int) else k.natAbs) = k := by
    by_cases h : k < 0
    · rw [if_pos (by simpa using h)]
      omega
    · rw [if_neg (by simpa using h)]
      omega
  have hzero : ¬(decide (k < 0) = true ∧ k.natAbs = 0) := by
    rintro ⟨hneg, h0⟩
    rw [decide_eq_true_eq] at hneg
    omega
  simp only [wholeNumber, hk]
  rw [dif_pos ⟨fits, hzero⟩]

/-- A numeral without fraction and exponent has its whole digits as its value. -/
theorem value_of_whole {t : Numeral} {n : Nat}
    (h : accumulate 18446744073709551616 0 t.whole = (n, [])) (hfraction : t.fraction = [])
    (hexponent : t.exponent = none) : t.value = .ok (wholeNumber t.negative n) := by
  unfold value
  rw [h]
  exact if_pos ⟨rfl, by rw [hfraction]; rfl, by rw [hexponent]; rfl⟩

/-- The numeral of a whole number spells that number. -/
theorem value_int (k : Int) (fits : -9223372036854775808 ≤ k ∧ k < 18446744073709551616)
    (rest : List Char) :
    value ⟨decide (k < 0), Nat.toDigits 10 k.natAbs, [], none, rest⟩ = .ok (.int k fits) := by
  have hlt : Nat.ofDigitChars 10 (Nat.toDigits 10 k.natAbs) 0 < 18446744073709551616 := by
    rw [Nat.ofDigitChars_ten_toDigits]
    omega
  have hacc := accumulate_eq _ 0 hlt
  rw [Nat.ofDigitChars_ten_toDigits] at hacc
  rw [value_of_whole hacc rfl rfl, wholeNumber_natAbs k fits]

end Numeral

end WsGateway.Json

namespace WsGateway

/-! ## Shortest decimals

Only zero has a shortest decimal without digits other than zero, and that has no exponent. -/

theorem Decimal.stripZeros_digits_ne_zero (n : Nat) {d : Decimal} (h : d.digits ≠ 0) :
    (d.stripZeros n).digits ≠ 0 := by
  induction n generalizing d with
  | zero => exact h
  | succ n ih =>
    rw [stripZeros]
    split
    · next hzero =>
      apply ih
      show d.digits / 10 ≠ 0
      omega
    · exact h

namespace Binary64

theorem num_ne_zero {x : Binary64} (h : x.isZero = false) : x.num ≠ 0 := by
  rw [num]
  apply Nat.mul_ne_zero
  · simpa [isZero] using h
  · exact Nat.ne_of_gt (Nat.pow_pos (by decide))

theorem searchGrids_digits_ne_zero {x : Binary64} (h : x.isZero = false) (top : Int)
    (n count : Nat) : (searchGrids x top n count).digits ≠ 0 := by
  induction n generalizing count with
  | zero => exact num_ne_zero h
  | succ n ih =>
    rw [searchGrids]
    split
    · next d ds heq =>
      -- a hit is a neighbour that has digits
      have hmem : d ∈ d :: ds := List.mem_cons_self
      rw [← heq, List.mem_filter] at hmem
      exact (of_decide_eq_true hmem.2).1
    · exact ih (count + 1)

/-- The shortest spelling of zero has no exponent. -/
theorem shortest_exponent {x : Binary64} (h : x.shortest.digits = 0) : x.shortest.exponent = 0 := by
  cases hx : x.isZero with
  | true => rw [shortest, if_pos hx]
  | false =>
    rw [shortest, if_neg (Bool.eq_false_iff.mp hx)] at h
    exact absurd h (Decimal.stripZeros_digits_ne_zero 20 (searchGrids_digits_ne_zero hx _ 17 0))

end Binary64

end WsGateway

namespace WsGateway.Json

/-! ## The numeral of a number -/

theorem wholeDigits_toDigits (n : Nat) : WholeDigits (Nat.toDigits 10 n) := by
  have hdigits : ∀ d ∈ Nat.toDigits 10 n, d.isDigit := fun d hd =>
    Nat.isDigit_of_mem_toDigits (by decide) (by decide) hd
  by_cases h : n = 0
  · subst h
    exact .zero
  · obtain ⟨c, cs, hcs, hc⟩ := Text.exists_cons_toDigits h
    rw [hcs] at hdigits ⊢
    exact .nonzero hc hdigits

/-- The digits of a decimal: they begin with a zero only if there is no other digit. -/
theorem exists_digitText (d : Decimal) : ∃ c cs, d.digitText.toList = c :: cs ∧
    (∀ e ∈ c :: cs, e.isDigit) ∧ (d.digits ≠ 0 → c ≠ '0') ∧
    (d.digits = 0 → c :: cs = ['0']) := by
  have htext : d.digitText.toList = Nat.toDigits 10 d.digits := by
    rw [Decimal.digitText, Nat.toString_eq_repr, Nat.toList_repr]
  obtain ⟨c, cs, hcs⟩ := List.exists_cons_of_ne_nil
    (Nat.toDigits_ne_nil (n := d.digits) (b := 10))
  refine ⟨c, cs, htext.trans hcs, ?_, ?_, ?_⟩
  · rw [← hcs]
    exact fun e he => Nat.isDigit_of_mem_toDigits (by decide) (by decide) he
  · intro hne
    obtain ⟨c', cs', hcs', hc'⟩ := Text.exists_cons_toDigits hne
    rw [hcs] at hcs'
    rwa [(List.cons.inj hcs').1]
  · intro hzero
    rw [← hcs, hzero, Nat.toDigits_zero]

theorem isDigit_of_mem_zeros {n : Nat} {c : Char} (h : c ∈ List.replicate n '0') :
    c.isDigit = true := by
  rw [(List.mem_replicate.mp h).2]
  rfl

/-- The digits of a decimal with the point behind the first. -/
theorem toList_mantissa (c : Char) (cs : List Char) :
    (match c :: cs with
      | [] => ""
      | [c] => c.toString
      | c :: cs => c.toString ++ "." ++ String.ofList cs).toList =
    c :: Numeral.fractionText cs := by
  cases cs with
  | nil => simp [Numeral.fractionText]
  | cons c' cs =>
    have hpoint : ".".toList = ['.'] := rfl
    simp [Numeral.fractionText, hpoint]

/-- A decimal is printed as a numeral without a sign. -/
theorem exists_numeral_decimal {d : Decimal} (hd : d.digits = 0 → d.exponent = 0)
    (negative : Bool) {rest : List Char} (hrest : EndsNumber rest) :
    ∃ t : Numeral, t.WellFormed ∧ t.negative = negative ∧ t.rest = rest ∧
      (printDecimal d).toList = t.unsigned := by
  obtain ⟨c, cs, htext, hall, hlead, hzero⟩ := exists_digitText d
  have hlength : (d.digitText.length : Int) = cs.length + 1 := by
    rw [← String.length_toList, htext, List.length_cons]
    omega
  have hwhole : d.digits ≠ 0 → ∀ cs', (∀ e ∈ cs', e.isDigit) → WholeDigits (c :: cs') := by
    intro hne cs' hcs'
    refine .nonzero (hlead hne) ?_
    intro e he
    rcases List.mem_cons.mp he with rfl | he
    · exact hall e List.mem_cons_self
    · exact hcs' e he
  have htail : ∀ e ∈ cs, e.isDigit := fun e he => hall e (List.mem_cons_of_mem _ he)
  simp only [printDecimal, htext, hlength]
  by_cases hint : 0 ≤ d.exponent ∧ (cs.length : Int) + 1 + d.exponent ≤ 16
  · rw [if_pos hint]
    refine ⟨⟨negative, c :: (cs ++ List.replicate d.exponent.toNat '0'), ['0'], none, rest⟩,
      ⟨?_, by simp, by simp, hrest⟩, rfl, rfl, ?_⟩
    · by_cases hdigits : d.digits = 0
      · obtain ⟨rfl, rfl⟩ := List.cons.inj (hzero hdigits)
        rw [hd hdigits]
        exact .zero
      · apply hwhole hdigits
        intro e he
        rcases List.mem_append.mp he with he | he
        · exact htail e he
        · exact isDigit_of_mem_zeros he
    · simp [htext, Numeral.unsigned, Numeral.fractionText, Numeral.exponentText]
  rw [if_neg hint]
  have hne : d.digits ≠ 0 := by
    intro hdigits
    obtain ⟨-, rfl⟩ := List.cons.inj (hzero hdigits)
    rw [hd hdigits] at hint
    exact hint (by simp)
  by_cases hinside : 0 < (cs.length : Int) + 1 + d.exponent ∧
      (cs.length : Int) + 1 + d.exponent ≤ 16
  · -- the point stands between two digits
    rw [if_pos hinside]
    obtain ⟨n, hn⟩ : ∃ n : Nat, (cs.length : Int) + 1 + d.exponent = n + 1 :=
      ⟨((cs.length : Int) + d.exponent).toNat, by omega⟩
    have hdrop : cs.drop n ≠ [] := by
      rw [Ne, List.drop_eq_nil_iff]
      omega
    have hpoint : ".".toList = ['.'] := rfl
    rw [hn, Int.toNat_natCast_add_one]
    refine ⟨⟨negative, c :: cs.take n, cs.drop n, none, rest⟩, ⟨?_, ?_, by simp, hrest⟩, rfl, rfl,
      ?_⟩
    · exact hwhole hne _ fun e he => htail e (List.mem_of_mem_take he)
    · exact fun e he => htail e (List.mem_of_mem_drop he)
    · simp [Numeral.unsigned, Numeral.fractionText, Numeral.exponentText, hdrop, hpoint]
  rw [if_neg hinside]
  by_cases hbefore : -5 < (cs.length : Int) + 1 + d.exponent ∧
      (cs.length : Int) + 1 + d.exponent ≤ 0
  · rw [if_pos hbefore]
    have hpoint : "0.".toList = ['0', '.'] := rfl
    refine ⟨⟨negative, ['0'], List.replicate (-((cs.length : Int) + 1 + d.exponent)).toNat '0' ++
      c :: cs, none, rest⟩, ⟨.zero, ?_, by simp, hrest⟩, rfl, rfl, ?_⟩
    · intro e he
      rcases List.mem_append.mp he with he | he
      · exact isDigit_of_mem_zeros he
      · exact hall e he
    · simp [Numeral.unsigned, Numeral.fractionText, Numeral.exponentText, hpoint, htext]
  rw [if_neg hbefore]
  -- a power of ten follows the digits, of which the first stands before the point
  set power := Nat.toDigits 10 ((cs.length : Int) + 1 + d.exponent - 1).natAbs with hpower
  have hdigits : (toString ((cs.length : Int) + 1 + d.exponent - 1).natAbs).toList = power := by
    rw [Nat.toString_eq_repr, Nat.toList_repr]
  have hexponent : power ≠ [] ∧ ∀ e ∈ power, e.isDigit :=
    ⟨Nat.toDigits_ne_nil, fun e he => Nat.isDigit_of_mem_toDigits (by decide) (by decide) he⟩
  have hletter : "e".toList = ['e'] := rfl
  have hsign : (if (cs.length : Int) + 1 + d.exponent ≤ 0 then "-" else "+").toList =
      [if decide ((cs.length : Int) + 1 + d.exponent ≤ 0) = true then '-' else '+'] := by
    by_cases h : (cs.length : Int) + 1 + d.exponent ≤ 0
    · rw [if_pos h, if_pos (decide_eq_true h)]
      rfl
    · rw [if_neg h, if_neg (by simpa using h)]
      rfl
  refine ⟨⟨negative, [c], cs, some (decide ((cs.length : Int) + 1 + d.exponent ≤ 0), power), rest⟩,
    ⟨hwhole hne [] (by simp), htail, ?_, hrest⟩, rfl, rfl, ?_⟩
  · intro e he
    rw [← Option.some.inj he]
    exact hexponent
  · simp only [String.toList_append, hdigits, hletter, hsign, Numeral.unsigned,
      Numeral.exponentText, List.append_assoc, List.cons_append, List.nil_append]
    exact congrArg (· ++ _) (toList_mantissa c cs)

/-- **Every number is printed as a well-formed numeral**, which spells the number if it is
whole. -/
theorem exists_numeral (n : Number) {rest : List Char} (hrest : EndsNumber rest) :
    ∃ t : Numeral, t.WellFormed ∧ t.rest = rest ∧ (printNumber n).toList = t.text ∧
      (n.int?.isSome → t.value = .ok n) := by
  cases n with
  | int k fits =>
    refine ⟨⟨decide (k < 0), Nat.toDigits 10 k.natAbs, [], none, rest⟩,
      ⟨wholeDigits_toDigits _, by simp, by simp, hrest⟩, rfl, ?_,
      fun _ => Numeral.value_int k fits _⟩
    rw [printNumber, Text.toList_intText]
    by_cases h : 0 ≤ k
    · have hk : k.toNat = k.natAbs := by omega
      simp [h, hk, Numeral.text, Numeral.unsigned, Numeral.fractionText, Numeral.exponentText]
    · have hk : (-k).toNat = k.natAbs := by omega
      have hneg : k < 0 := by omega
      simp [h, hk, hneg, Numeral.text, Numeral.unsigned, Numeral.fractionText,
        Numeral.exponentText]
  | float x =>
    obtain ⟨t, hwell, hnegative, hrest', htext⟩ :=
      exists_numeral_decimal (d := x.shortest) Binary64.shortest_exponent x.negative hrest
    refine ⟨t, hwell, hrest', ?_, by simp [Number.int?]⟩
    -- the sign of the float is that of the numeral
    have hsign : (if x.negative = true then "-" else "").toList =
        if t.negative then ['-'] else [] := by
      rw [hnegative]
      cases x.negative <;> rfl
    rw [printNumber, printFloat, String.toList_append, hsign, htext, Numeral.text]

/-! ## Reading and skipping a number -/

theorem WholeDigits.exists_cons {ds : List Char} (h : WholeDigits ds) :
    ∃ c cs, ds = c :: cs ∧ c.isDigit = true := by
  cases h with
  | zero => exact ⟨'0', [], rfl, rfl⟩
  | @nonzero c cs _ hdigits => exact ⟨c, cs, rfl, hdigits c List.mem_cons_self⟩

/-- A numeral begins with a digit behind its sign. -/
theorem Numeral.WellFormed.exists_cons {t : Numeral} (h : t.WellFormed) :
    ∃ c cs, t.unsigned = c :: cs ∧ c.isDigit = true := by
  obtain ⟨c, cs, hwhole, hc⟩ := h.whole.exists_cons
  exact ⟨c, cs ++ (Numeral.fractionText t.fraction ++ Numeral.exponentText t.exponent),
    by rw [Numeral.unsigned, hwhole, List.cons_append], hc⟩

/-- A printed number begins with a minus sign or a digit. -/
theorem exists_cons_printNumber (n : Number) :
    ∃ c cs, (printNumber n).toList = c :: cs ∧ (c = '-' ∨ c.isDigit = true) := by
  obtain ⟨t, hwell, -, htext, -⟩ := exists_numeral n endsNumber_nil
  obtain ⟨c, cs, hcs, hc⟩ := hwell.exists_cons
  rw [htext, Numeral.text, hcs]
  cases t.negative with
  | true => exact ⟨'-', c :: cs, rfl, Or.inl rfl⟩
  | false => exact ⟨c, cs, rfl, Or.inr hc⟩

/-- A printed number is skipped. -/
theorem skipNumber_print (n : Number) {rest : List Char} (hrest : EndsNumber rest) :
    skipNumber ((printNumber n).toList ++ rest) = .ok rest := by
  obtain ⟨t, hwell, rfl, htext, -⟩ := exists_numeral n hrest
  -- the sign does not matter to what is skipped
  have hread : Numeral.read .invalidNumber false (t.unsigned ++ t.rest) =
      .ok { t with negative := false } :=
    Numeral.read_unsigned (t := { t with negative := false })
      ⟨hwell.whole, hwell.fraction, hwell.exponent, hwell.rest⟩ _
  rw [htext, Numeral.text]
  cases hneg : t.negative with
  | true => simp [skipNumber, hread, bind, Except.bind, pure, Except.pure]
  | false =>
    obtain ⟨c, cs, hcs, hc⟩ := hwell.exists_cons
    have hminus : c ≠ '-' := by
      rintro rfl
      exact absurd hc (by decide)
    rw [hcs] at hread ⊢
    simp only [List.cons_append] at hread
    simp [skipNumber, hminus, hread, bind, Except.bind, pure, Except.pure]

/-- **A printed whole number is read back.** -/
theorem readNumber_print {n : Number} (hn : n.int?.isSome) {rest : List Char}
    (hrest : EndsNumber rest) : readNumber ((printNumber n).toList ++ rest) = .ok (n, rest) := by
  obtain ⟨t, hwell, rfl, htext, hvalue⟩ := exists_numeral n hrest
  have hread := Numeral.read_unsigned hwell .endInValue
  rw [htext, Numeral.text]
  cases hneg : t.negative with
  | true =>
    rw [hneg] at hread
    simp [readNumber, hread, hvalue hn, bind, Except.bind, pure, Except.pure]
  | false =>
    rw [hneg] at hread
    obtain ⟨c, cs, hcs, hc⟩ := hwell.exists_cons
    have hminus : c ≠ '-' := by
      rintro rfl
      exact absurd hc (by decide)
    rw [hcs] at hread ⊢
    simp only [List.cons_append] at hread
    simp [readNumber, hminus, hread, hvalue hn, bind, Except.bind, pure, Except.pure]

end WsGateway.Json
