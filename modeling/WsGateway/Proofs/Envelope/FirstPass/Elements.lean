import WsGateway.Proofs.Envelope.FirstPass.Values

/-!
# The first pass over a list

What is taken from an envelope that is a list: one value for each of its elements, by their places
(`Ranks`). A list that is read says what its elements say and has no fifth one
(`ranks_of_readElements`), and a list whose elements can be read is read (`readElements_of_ranks`).
-/

namespace WsGateway

open Json

namespace LooseRequest

/-! ## The elements of a list -/

section Element

variable {α : Type} {decoder : Decoder α} {limit depth : Nat} {first : Bool}
  {items : List (List Char)} {gap t : List Char} {x : Option α}

/-- A closing bracket ends a list. -/
theorem nextElement_nil (hgap : Blanks gap) :
    nextElement first (gap ++ (between first [] ++ ']' :: t)) = .ok (.done t) := by
  rw [between_nil]
  exact nextElement_close first hgap t

/-- A reader of lists comes to the next item, behind its comma and its blanks. -/
theorem nextElement_cons (hgap : Blanks gap) {item : List Char} (hitem : BeginsBehindBlanks item)
    (u : List Char) : nextElement first (gap ++ (between first (item :: items) ++ u)) =
      .ok (.item (skipBlanks (item ++ (between false items ++ u)))) := by
  obtain ⟨c, cs, hc, hne⟩ := hitem
  have hbegin := skipBlanks_append hc (between false items ++ u)
  cases first with
  | true =>
    have hsource : between true (item :: items) ++ u = item ++ (between false items ++ u) :=
      List.append_assoc ..
    rw [hsource, nextElement, skipBlanks_blanks hgap, hbegin]
    dsimp only
    rw [if_neg hne, if_pos rfl]
  | false =>
    have hsource : between false (item :: items) ++ u =
        ',' :: (item ++ (between false items ++ u)) :=
      congrArg (',' :: ·) (List.append_assoc ..)
    rw [hsource, nextElement, skipBlanks_blanks hgap, skipBlanks_cons rfl, hbegin]
    dsimp only
    rw [if_neg (by decide), if_neg Bool.false_ne_true, if_pos rfl, hbegin]
    dsimp only
    rw [if_neg hne]

variable (hblanks : ∀ s, decoder limit depth (skipBlanks s) = decoder limit depth s)

/-- At the end of a list no element is read, and the list goes on to end there. -/
theorem readElement_nil (hgap : Blanks gap) :
    readElement decoder limit depth first (gap ++ (between first [] ++ ']' :: t)) =
      .ok (none, gap ++ (between true [] ++ ']' :: t)) := by
  rw [readElement, nextElement_nil hgap, between_nil, between_nil]
  rfl

include hblanks

/-- An element is read where an item stands. -/
theorem readElement_cons (hgap : Blanks gap) {item : List Char} (hitem : BeginsBehindBlanks item) :
    readElement decoder limit depth first (gap ++ (between first (item :: items) ++ ']' :: t)) = (do
      let (a, rest) ← decoder limit depth (item ++ (between false items ++ ']' :: t))
      pure (some a, rest)) := by
  rw [readElement, nextElement_cons hgap hitem, ← hblanks]
  rfl

/-- An element that is read is what is found in the first of the texts, if there is one, and the
others are left. -/
theorem filled_of_readElement (hskip : Skippable limit (decoder limit depth)) (hgap : Blanks gap)
    (hitems : ∀ item ∈ items, WellFormed item)
    (hlimit : (gap ++ (between first items ++ ']' :: t)).length ≤ limit) {r : List Char}
    (h : readElement decoder limit depth first (gap ++ (between first items ++ ']' :: t)) =
      .ok (x, r)) :
    Filled (Found (decoder limit depth)) none items.head?.toList x ∧
      ∃ gap', Blanks gap' ∧ r = gap' ++ (between x.isNone items.tail ++ ']' :: t) ∧
        r.length ≤ limit := by
  cases items with
  | nil =>
    rw [readElement_nil hgap] at h
    cases h
    refine ⟨.kept none, gap, hgap, rfl, ?_⟩
    rwa [between_nil, ← between_nil first]
  | cons item items =>
    have hitem := hitems item List.mem_cons_self
    rw [readElement_cons hblanks hgap hitem.beginsBehindBlanks, bind_eq_ok] at h
    obtain ⟨⟨a, rest⟩, ha, h⟩ := h
    cases h
    have hlength : item.length + (between false items).length ≤
        (between first (item :: items)).length := by
      cases first
      all_goals
        simp only [between, commaSeparated, List.flatMap_cons, List.length_append, List.length_cons]
        omega
    simp only [List.length_append, List.length_cons] at hlimit
    have hinner : (item ++ (between false items ++ ']' :: t)).length ≤ limit := by
      simp only [List.length_append, List.length_cons]
      omega
    have ht : EndsNumber (between false items ++ ']' :: t) :=
      endsNumber_separated (.inl rfl) items t
    -- the element is read as far as it is skipped
    obtain ⟨depth', hdepth, hskipped⟩ := hskip hinner ha
    have hshorter := length_of_skip (skipNested_ok limit depth') hskipped
    obtain ⟨gap', hgap', rfl⟩ := hitem.rest_of_skip ht (by omega) (by omega) hskipped
    exact ⟨.found ⟨_, gap', ht, hgap', ha⟩, gap', hgap', rfl, by omega⟩

variable (first t) in
/-- An element is read where one can be read in the first of the texts, if there is one. -/
theorem readElement_of_filled (hgap : Blanks gap)
    (hitems : ∀ item ∈ items, BeginsBehindBlanks item)
    (h : Filled (ReadsAs (decoder limit depth)) none items.head?.toList x) :
    ∃ gap', Blanks gap' ∧
      readElement decoder limit depth first (gap ++ (between first items ++ ']' :: t)) =
        .ok (x, gap' ++ (between x.isNone items.tail ++ ']' :: t)) := by
  cases items with
  | nil =>
    cases h
    exact ⟨gap, hgap, readElement_nil hgap⟩
  | cons item items =>
    cases h with
    | found h =>
      obtain ⟨gap', hgap', ha⟩ := h (between false items ++ ']' :: t)
        (endsNumber_separated (.inl rfl) items t)
      refine ⟨gap', hgap', ?_⟩
      rw [readElement_cons hblanks hgap (hitems item List.mem_cons_self), ha]
      rfl

omit hblanks

/-- The text goes on with elements up to a closing bracket. -/
def GoesOn (first : Bool) (s r : List Char) : Prop :=
  ∃ gap items, Blanks gap ∧ (∀ item ∈ items, WellFormed item) ∧
    s = gap ++ (between first items ++ ']' :: r)

/-- A list that is at its end goes on with no elements. -/
theorem goesOn_close {first' : Bool} {s r : List Char}
    (h : nextElement first s = .ok (.done r)) : GoesOn first' s r := by
  obtain ⟨gap, hgap, rfl⟩ := skipToElement_done (skipToElement_of_nextElement_done h)
  exact ⟨gap, [], hgap, fun _ h => absurd h List.not_mem_nil, by rw [between_nil]; rfl⟩

/-- Where a list ends no element begins. -/
theorem GoesOn.eq_of_done {s r r' : List Char} (h : GoesOn true s r)
    (hdone : nextElement first s = .ok (.done r')) : r = r' := by
  obtain ⟨gap', hgap', hs⟩ := skipToElement_done (skipToElement_of_nextElement_done hdone)
  obtain ⟨gap, items, hgap, hitems, rfl⟩ := h
  have hnext := nextElement_close true hgap' r'
  rw [← hs] at hnext
  cases items with
  | nil =>
    rw [nextElement_nil hgap] at hnext
    cases hnext
    rfl
  | cons item items =>
    rw [nextElement_cons hgap (hitems item List.mem_cons_self).beginsBehindBlanks] at hnext
    cases hnext

/-- One more element in front of those with which the text goes on. -/
theorem goesOn_of_readElement (hskip : Skippable limit (decoder limit depth)) {s s' : List Char}
    (hlimit : s.length ≤ limit) (h : readElement decoder limit depth first s = .ok (x, s')) :
    s'.length ≤ s.length ∧ ∀ r, GoesOn x.isNone s' r → GoesOn first s r := by
  rw [readElement, bind_eq_ok] at h
  obtain ⟨step, hstep, h⟩ := h
  cases step with
  | done r' =>
    cases h
    refine ⟨Nat.le_refl _, fun r hrest => ?_⟩
    rw [hrest.eq_of_done hstep]
    exact goesOn_close hstep
  | item s₁ =>
    obtain ⟨⟨a, rest⟩, ha, h⟩ := bind_eq_ok.mp h
    cases h
    obtain ⟨s₀, hskipped, rfl, hle⟩ := skipToElement_of_nextElement hstep
    have hbehind : (skipBlanks s₀).length ≤ s₀.length := List.length_dropWhile_le _ _
    obtain ⟨depth', -, hpass⟩ := hskip (by omega) ha
    have hshorter := length_of_skip (skipNested_ok limit depth') hpass
    rw [skipNested_skipBlanks] at hpass
    obtain ⟨text, htext, rfl⟩ := skipNested_ok limit depth' hpass
    refine ⟨by omega, ?_⟩
    -- the blanks in front of the next comma belong to this element
    rintro r ⟨gap', items, hgap', hitems, rfl⟩
    have hall := List.forall_mem_cons.mpr ⟨htext.append_blanks hgap', hitems⟩
    cases first with
    | true =>
      obtain ⟨gap, hgap, rfl⟩ := skipToElement_first hskipped
      refine ⟨gap, (text ++ gap') :: items, hgap, hall, ?_⟩
      simp [between, commaSeparated]
    | false =>
      obtain ⟨gap, hgap, rfl⟩ := skipToElement_next hskipped
      refine ⟨gap, (text ++ gap') :: items, hgap, hall, ?_⟩
      simp [between]

end Element

/-- What the elements of a list say: id, op, type and payload, of which those at the end may be
missing. -/
structure Ranks (holds : List Char → Option Value → Prop) (keeps : List Char → Option String → Prop)
    (items : List (List Char)) (loose : LooseRequest) : Prop where
  short : items.length ≤ 4
  id : Filled holds none items[0]?.toList loose.id
  op : Filled holds none items[1]?.toList loose.op
  kind : Filled holds none items[2]?.toList loose.kind
  payload : Filled keeps none items[3]?.toList loose.payload

section Elements

variable {limit depth : Nat} {loose : LooseRequest} {items : List (List Char)} {gap t : List Char}

theorem member_skipBlanks (limit depth : Nat) (s : List Char) :
    member limit depth (skipBlanks s) = member limit depth s :=
  option_skipBlanks .value s

theorem verbatim_skipBlanks (limit depth : Nat) (s : List Char) :
    verbatim limit depth (skipBlanks s) = verbatim limit depth s :=
  option_skipBlanks .verbatim s

/-- The elements and the end of a list. -/
theorem readElements_eq_ok_iff {s r : List Char} :
    readElements limit depth s = .ok (loose, r) ↔ ∃ s₁ s₂ s₃ s₄,
      readElement member limit depth true s = .ok (loose.id, s₁) ∧
      readElement member limit depth loose.id.isNone s₁ = .ok (loose.op, s₂) ∧
      readElement member limit depth loose.op.isNone s₂ = .ok (loose.kind, s₃) ∧
      readElement verbatim limit depth loose.kind.isNone s₃ = .ok (loose.payload, s₄) ∧
      nextElement false s₄ = .ok (.done r) := by
  simp only [← endFields_eq_ok_iff]
  constructor
  · intro h
    obtain ⟨⟨id, s₁⟩, hid, h⟩ := bind_eq_ok.mp h
    obtain ⟨⟨op, s₂⟩, hop, h⟩ := bind_eq_ok.mp h
    obtain ⟨⟨kind, s₃⟩, hkind, h⟩ := bind_eq_ok.mp h
    obtain ⟨⟨payload, s₄⟩, hpayload, h⟩ := bind_eq_ok.mp h
    obtain ⟨s₅, hend, h⟩ := bind_eq_ok.mp h
    cases h
    exact ⟨s₁, s₂, s₃, s₄, hid, hop, hkind, hpayload, hend⟩
  · rintro ⟨s₁, s₂, s₃, s₄, hid, hop, hkind, hpayload, hend⟩
    simp only [readElements, hid, hop, hkind, hpayload, hend, bind, Except.bind]
    rfl

/-- **A list that is read says what its elements say**, and is read to its end. -/
theorem ranks_of_readElements (hgap : Blanks gap) (hitems : ∀ item ∈ items, WellFormed item)
    (hlimit : (gap ++ (between true items ++ ']' :: t)).length ≤ limit) {r : List Char}
    (h : readElements limit depth (gap ++ (between true items ++ ']' :: t)) = .ok (loose, r)) :
    Ranks (Found (member limit depth)) (Found (verbatim limit depth)) items loose ∧ r = t := by
  obtain ⟨s₁, s₂, s₃, s₄, hid, hop, hkind, hpayload, hend⟩ := readElements_eq_ok_iff.mp h
  have hmember := member_skipBlanks limit depth
  have hdrop : ∀ n, ∀ item ∈ items.drop n, WellFormed item := fun n item hitem =>
    hitems item (List.mem_of_mem_drop hitem)
  obtain ⟨hid', gap₁, hgap₁, rfl, hlimit₁⟩ :=
    filled_of_readElement hmember (skippable_member limit depth) hgap hitems hlimit hid
  rw [← List.drop_one] at hop hlimit₁
  obtain ⟨hop', gap₂, hgap₂, rfl, hlimit₂⟩ :=
    filled_of_readElement hmember (skippable_member limit depth) hgap₁ (hdrop 1) hlimit₁ hop
  rw [List.tail_drop] at hkind hlimit₂
  obtain ⟨hkind', gap₃, hgap₃, rfl, hlimit₃⟩ :=
    filled_of_readElement hmember (skippable_member limit depth) hgap₂ (hdrop 2) hlimit₂ hkind
  rw [List.tail_drop] at hpayload hlimit₃
  obtain ⟨hpayload', gap₄, hgap₄, rfl, -⟩ := filled_of_readElement (verbatim_skipBlanks limit depth)
    (skippable_verbatim limit depth) hgap₃ (hdrop 3) hlimit₃ hpayload
  rw [List.tail_drop] at hend
  rw [List.head?_eq_getElem?] at hid'
  rw [List.head?_drop] at hop' hkind' hpayload'
  -- a fifth element would stand behind a comma, where the list must end
  cases hfifth : items.drop 4 with
  | nil =>
    rw [hfifth, between_nil, List.nil_append, nextElement_close false hgap₄] at hend
    cases hend
    exact ⟨⟨List.drop_eq_nil_iff.mp hfifth, hid', hop', hkind', hpayload'⟩, rfl⟩
  | cons item rest =>
    have hlong : 4 < items.length := by
      rw [← Nat.not_le, ← List.drop_eq_nil_iff, hfifth]
      exact List.cons_ne_nil _ _
    rw [List.getElem?_eq_getElem (by omega : 3 < items.length)] at hpayload'
    have hsome : loose.payload.isNone = false := by
      generalize loose.payload = payload at hpayload'
      cases hpayload'
      rfl
    have hitem : WellFormed item := hdrop 4 item (by rw [hfifth]; exact List.mem_cons_self)
    rw [hfifth, hsome, nextElement_cons hgap₄ hitem.beginsBehindBlanks] at hend
    cases hend

/-- **A list whose elements can be read is read**, however many of them there are. -/
theorem readElements_of_ranks (hgap : Blanks gap) (hitems : ∀ item ∈ items, WellFormed item)
    (h : Ranks (ReadsAs (member limit depth)) (ReadsAs (verbatim limit depth)) items loose) :
    readElements limit depth (gap ++ (between true items ++ ']' :: t)) = .ok (loose, t) := by
  have hmember := member_skipBlanks limit depth
  have hbegin : ∀ n, ∀ item ∈ items.drop n, BeginsBehindBlanks item := fun n item hitem =>
    (hitems item (List.mem_of_mem_drop hitem)).beginsBehindBlanks
  obtain ⟨hshort, hid, hop, hkind, hpayload⟩ := h
  rw [← List.head?_drop] at hid hop hkind hpayload
  -- Each element is read or found missing; the blanks before the next one are left to it.
  obtain ⟨gap₁, hgap₁, hid'⟩ := readElement_of_filled true t hmember hgap (hbegin 0) hid
  obtain ⟨gap₂, hgap₂, hop'⟩ :=
    readElement_of_filled loose.id.isNone t hmember hgap₁ (hbegin 1) hop
  obtain ⟨gap₃, hgap₃, hkind'⟩ :=
    readElement_of_filled loose.op.isNone t hmember hgap₂ (hbegin 2) hkind
  obtain ⟨gap₄, hgap₄, hpayload'⟩ := readElement_of_filled loose.kind.isNone t
    (verbatim_skipBlanks limit depth) hgap₃ (hbegin 3) hpayload
  rw [List.drop_zero, ← List.drop_one] at hid'
  rw [List.tail_drop] at hop' hkind' hpayload'
  rw [readElements_eq_ok_iff]
  refine ⟨_, _, _, _, hid', hop', hkind', hpayload', ?_⟩
  rw [List.drop_eq_nil_iff.mpr hshort, between_nil]
  exact nextElement_close false hgap₄ t

/-- What is read as the elements of a list are elements. -/
theorem exists_items_of_readElements {s r : List Char} (hlimit : s.length ≤ limit)
    (h : readElements limit depth s = .ok (loose, r)) :
    ∃ gap items, Blanks gap ∧ (∀ item ∈ items, WellFormed item) ∧
      s = gap ++ (between true items ++ ']' :: r) := by
  obtain ⟨s₁, s₂, s₃, s₄, hid, hop, hkind, hpayload, hend⟩ := readElements_eq_ok_iff.mp h
  have hskip := skippable_member limit depth
  obtain ⟨hle₁, hid⟩ := goesOn_of_readElement hskip hlimit hid
  obtain ⟨hle₂, hop⟩ := goesOn_of_readElement hskip (by omega) hop
  obtain ⟨hle₃, hkind⟩ := goesOn_of_readElement hskip (by omega) hkind
  obtain ⟨hle₄, hpayload⟩ :=
    goesOn_of_readElement (skippable_verbatim limit depth) (by omega) hpayload
  exact hid r (hop r (hkind r (hpayload r (goesOn_close hend))))

end Elements

end LooseRequest

end WsGateway
