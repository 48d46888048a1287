import WsGateway.Proofs.Json.Decoded
import WsGateway.Proofs.Json.Printed

/-!
# Which printed values can be read

The text of a value may be refused: if the value is nested too deep, or if an object in it has the
embedding name in front, so that its first member is taken for an embedded text. There is no other
reason (`parse_print_iff`). That the text is read only if the value is neither is shown by an
induction on the value, whose steps are that a list or an object is read only if its parts are
(`readElements_inv`, `readMembers_inv`).
-/

namespace WsGateway.Json

/-! ## Lists and objects are read only if their parts are -/

section Elements

variable {α β : Type} {f : List Char → Except Fault (α × List Char)} {p : β → Prop}
  (text : β → List Char)

theorem readElements_item_ok {first : Bool} {s s' : List Char}
    (hstep : nextElement first s = .ok (.item s')) {n : Nat} {r : List α × List Char}
    (h : readElements f (n + 1) first s = .ok r) :
    ∃ a s₁ r', f s' = .ok (a, s₁) ∧ readElements f n false s₁ = .ok r' := by
  rw [readElements_item hstep, bind_eq_ok] at h
  obtain ⟨⟨a, s₁⟩, ha, h⟩ := h
  rw [bind_eq_ok] at h
  obtain ⟨r', hrest, -⟩ := h
  exact ⟨a, s₁, r', ha, hrest⟩

/-- What every element must have to be read, it has if the elements behind commas are read. -/
theorem readElements_rest_inv (items : List β) (hbegin : ∀ b ∈ items, BeginsValue (text b))
    (hread : ∀ b ∈ items, ∀ {t a r}, EndsNumber t → f (text b ++ t) = .ok (a, r) → p b ∧ r = t)
    {n : Nat} {t : List Char} {r : List α × List Char}
    (h : readElements f n false
      (((items.map text).flatMap fun y => ',' :: y) ++ ']' :: t) = .ok r) :
    ∀ b ∈ items, p b := by
  induction items generalizing n r with
  | nil => exact fun b hb => absurd hb List.not_mem_nil
  | cons b items ih =>
    cases n with
    | zero => cases h
    | succ n =>
      rw [List.map_cons, List.flatMap_cons, List.cons_append, List.cons_append,
        List.append_assoc] at h
      obtain ⟨a, s, r', ha, hrest⟩ := readElements_item_ok
        (nextElement_comma (by simp : ∀ c ∈ [], isBlank c) (hbegin b List.mem_cons_self) _) h
      -- the element is read up to its end, where the next comma stands
      obtain ⟨hb, rfl⟩ := hread b List.mem_cons_self
        (endsNumber_separated (Or.inl rfl) (items.map text) t) ha
      have hitems := ih (fun b hb => hbegin b (List.mem_cons_of_mem _ hb))
        (fun b hb => hread b (List.mem_cons_of_mem _ hb)) hrest
      exact List.forall_mem_cons.mpr ⟨hb, hitems⟩

/-- **A list is read only if its elements are.** -/
theorem readElements_inv (items : List β) (hbegin : ∀ b ∈ items, BeginsValue (text b))
    (hread : ∀ b ∈ items, ∀ {t a r}, EndsNumber t → f (text b ++ t) = .ok (a, r) → p b ∧ r = t)
    {n : Nat} {t : List Char} {r : List α × List Char}
    (h : readElements f n true (commaSeparated (items.map text) ++ ']' :: t) = .ok r) :
    ∀ b ∈ items, p b := by
  cases items with
  | nil => exact fun b hb => absurd hb List.not_mem_nil
  | cons b items =>
    cases n with
    | zero => cases h
    | succ n =>
      rw [List.map_cons, commaSeparated, List.append_assoc] at h
      obtain ⟨a, s, r', ha, hrest⟩ :=
        readElements_item_ok (nextElement_true (hbegin b List.mem_cons_self) _) h
      obtain ⟨hb, rfl⟩ := hread b List.mem_cons_self
        (endsNumber_separated (Or.inl rfl) (items.map text) t) ha
      have hitems := readElements_rest_inv text items
        (fun b hb => hbegin b (List.mem_cons_of_mem _ hb))
        (fun b hb => hread b (List.mem_cons_of_mem _ hb)) hrest
      exact List.forall_mem_cons.mpr ⟨hb, hitems⟩

end Elements

section Members

variable {α β : Type} {f : List Char → Except Fault (α × List Char)} {p : β → Prop}
  (text : β → List Char) {limit : Nat}

theorem readMembers_item_ok {first : Bool} {s s' : List Char} {key : String}
    (hkey : (printString key).toList.length ≤ limit)
    (hstep : nextMember first s = .ok (.item (escaped key.toList ++ '"' :: ':' :: s'))) {n : Nat}
    {r : List (String × α) × List Char} (h : readMembers limit f (n + 1) first s = .ok r) :
    ∃ a s₁ r', f s' = .ok (a, s₁) ∧ readMembers limit f n false s₁ = .ok r' := by
  rw [readMembers_item key hkey hstep, bind_eq_ok] at h
  obtain ⟨⟨a, s₁⟩, ha, h⟩ := h
  rw [bind_eq_ok] at h
  obtain ⟨r', hrest, -⟩ := h
  exact ⟨a, s₁, r', ha, hrest⟩

/-- What every value must have to be read, it has if the members behind commas are read. -/
theorem readMembers_rest_inv (members : List (String × β))
    (hkey : ∀ m ∈ members, (printString m.1).toList.length ≤ limit)
    (hread : ∀ m ∈ members, ∀ {t a r}, EndsNumber t → f (text m.2 ++ t) = .ok (a, r) →
      p m.2 ∧ r = t) {n : Nat} {t : List Char} {r : List (String × α) × List Char}
    (h : readMembers limit f n false
      (((members.map fun m => memberText m.1 (text m.2)).flatMap fun y => ',' :: y) ++
        '\x7d' :: t) = .ok r) :
    ∀ m ∈ members, p m.2 := by
  induction members generalizing n r with
  | nil => exact fun m hm => absurd hm List.not_mem_nil
  | cons m members ih =>
    cases n with
    | zero => cases h
    | succ n =>
      rw [List.map_cons, List.flatMap_cons, List.cons_append, List.cons_append,
        List.append_assoc, memberText_eq] at h
      obtain ⟨a, s, r', ha, hrest⟩ := readMembers_item_ok (hkey m List.mem_cons_self)
        (nextMember_false _) h
      have hends := endsNumber_separated (Or.inr rfl)
        (members.map fun m => memberText m.1 (text m.2)) t
      obtain ⟨hm, rfl⟩ := hread m List.mem_cons_self hends ha
      have hmembers := ih (fun m hm => hkey m (List.mem_cons_of_mem _ hm))
        (fun m hm => hread m (List.mem_cons_of_mem _ hm)) hrest
      exact List.forall_mem_cons.mpr ⟨hm, hmembers⟩

/-- **An object is read only if its values are.** -/
theorem readMembers_inv (members : List (String × β))
    (hkey : ∀ m ∈ members, (printString m.1).toList.length ≤ limit)
    (hread : ∀ m ∈ members, ∀ {t a r}, EndsNumber t → f (text m.2 ++ t) = .ok (a, r) →
      p m.2 ∧ r = t) {n : Nat} {t : List Char} {r : List (String × α) × List Char}
    (h : readMembers limit f n true
      (commaSeparated (members.map fun m => memberText m.1 (text m.2)) ++ '\x7d' :: t) = .ok r) :
    ∀ m ∈ members, p m.2 := by
  cases members with
  | nil => exact fun m hm => absurd hm List.not_mem_nil
  | cons m members =>
    cases n with
    | zero => cases h
    | succ n =>
      rw [List.map_cons, commaSeparated, List.append_assoc, memberText_eq] at h
      obtain ⟨a, s, r', ha, hrest⟩ :=
        readMembers_item_ok (hkey m List.mem_cons_self) (nextMember_true _) h
      have hends := endsNumber_separated (Or.inr rfl)
        (members.map fun m => memberText m.1 (text m.2)) t
      obtain ⟨hm, rfl⟩ := hread m List.mem_cons_self hends ha
      have hmembers := readMembers_rest_inv text members
        (fun m hm => hkey m (List.mem_cons_of_mem _ hm))
        (fun m hm => hread m (List.mem_cons_of_mem _ hm)) hrest
      exact List.forall_mem_cons.mpr ⟨hm, hmembers⟩

end Members

/-! ## Embedded texts -/

theorem readText_of_ne {expected : String} {limit : Nat} {c : Char} (hblank : isBlank c = false)
    (hc : c ≠ '"') (s : List Char) :
    readText expected limit (c :: s) = refuse expected limit (c :: s) := by
  rw [readText, skipBlanks_cons hblank]
  split
  · next heq => exact absurd (List.cons.inj heq).1 hc
  · rfl

/-- Where a text is wanted, a printed value is read up to its end or refused. -/
theorem readText_print_ok {expected : String} {v : Value} {limit : Nat}
    (hlimit : v.print.toList.length ≤ limit) {t : List Char} {r : String × List Char}
    (h : readText expected limit (v.print.toList ++ t) = .ok r) : r.2 = t := by
  -- Only the string begins with a quote; every other kind is refused by its first character.
  cases v with
  | null =>
    have htext : Value.null.print.toList = ['n', 'u', 'l', 'l'] := rfl
    rw [htext, List.cons_append, readText_of_ne rfl (by decide)] at h
    exact absurd h (refuse_ne_ok _ _ _ _)
  | bool b =>
    cases b with
    | true =>
      have htext : (Value.bool true).print.toList = ['t', 'r', 'u', 'e'] := rfl
      rw [htext, List.cons_append, readText_of_ne rfl (by decide)] at h
      exact absurd h (refuse_ne_ok _ _ _ _)
    | false =>
      have htext : (Value.bool false).print.toList = ['f', 'a', 'l', 's', 'e'] := rfl
      rw [htext, List.cons_append, readText_of_ne rfl (by decide)] at h
      exact absurd h (refuse_ne_ok _ _ _ _)
  | number n =>
    obtain ⟨c, cs, htext, hc⟩ := exists_cons_printNumber n
    obtain ⟨c', cs', htext', hblank, -⟩ := beginsValue_print (.number n)
    obtain ⟨rfl, rfl⟩ := List.cons.inj (htext.symm.trans htext')
    have hne : c ≠ '"' := by
      rintro rfl
      exact absurd hc (by decide)
    rw [htext', List.cons_append, readText_of_ne hblank hne] at h
    exact absurd h (refuse_ne_ok _ _ _ _)
  | string s =>
    have htext : (Value.string s).print.toList = '"' :: (escaped s.toList ++ ['"']) :=
      toList_printString s
    have hquote : ∀ cs, readText expected limit ('"' :: cs) = readString limit cs := fun _ => rfl
    have hread := readString_escaped s hlimit t
    rw [htext, List.cons_append, List.append_assoc, List.singleton_append, hquote, hread] at h
    cases h
    rfl
  | array items =>
    rw [toList_print_array, List.cons_append, readText_of_ne rfl (by decide)] at h
    exact absurd h (refuse_ne_ok _ _ _ _)
  | object members =>
    rw [toList_print_object, List.cons_append, readText_of_ne rfl (by decide)] at h
    exact absurd h (refuse_ne_ok _ _ _ _)

/-- Nothing may follow an embedded text. -/
theorem readEmbedded_print_ne_ok {parse : String → Except String Value} {v : Value} {limit : Nat}
    (hlimit : v.print.toList.length ≤ limit) (t : List Char) (r : Value × List Char) :
    readEmbedded parse limit (':' :: (v.print.toList ++ ',' :: t)) ≠ .ok r := by
  intro h
  obtain ⟨s, text, s', hcolon, htext, -, hend⟩ := readEmbedded_eq_ok_iff.mp h
  rw [readColon_cons] at hcolon
  cases hcolon
  -- the text ends where the comma stands, but a brace is wanted there
  obtain rfl := readText_print_ok hlimit htext
  cases hend

/-- A printed object whose first member has the reserved name is taken for an embedded text. -/
theorem afterEmbeddingName?_reserved {β : Type} (text : β → List Char) {m : String × β}
    (hm : m.1 = embeddingName) (members : List (String × β)) {limit : Nat}
    (hkey : (printString m.1).toList.length ≤ limit) (t : List Char) :
    afterEmbeddingName? limit
        (commaSeparated ((m :: members).map fun m => memberText m.1 (text m.2)) ++ '\x7d' :: t) =
      some (':' :: (text m.2 ++
        (((members.map fun m => memberText m.1 (text m.2)).flatMap fun y => ',' :: y) ++
          '\x7d' :: t))) := by
  rw [List.map_cons, commaSeparated, List.append_assoc, memberText_eq, afterEmbeddingName?,
    nextMember_true]
  dsimp only
  rw [readString_escaped m.1 hkey]
  dsimp only
  rw [if_pos hm]

/-! ## Values -/

theorem itemsHeight_le {items : List Value} {depth : Nat} (h : ∀ v ∈ items, v.height ≤ depth) :
    itemsHeight items ≤ depth := by
  induction items with
  | nil => exact Nat.zero_le _
  | cons v rest ih =>
    rw [itemsHeight]
    exact Nat.max_le.mpr ⟨h v List.mem_cons_self, ih fun u hu => h u (List.mem_cons_of_mem _ hu)⟩

theorem membersHeight_le {members : List (String × Value)} {depth : Nat}
    (h : ∀ m ∈ members, m.2.height ≤ depth) : membersHeight members ≤ depth := by
  induction members with
  | nil => exact Nat.zero_le _
  | cons m rest ih =>
    rw [membersHeight]
    exact Nat.max_le.mpr ⟨h m List.mem_cons_self, ih fun u hu => h u (List.mem_cons_of_mem _ hu)⟩

/-- The value is nested at most so deep, and no object in it has the embedding name in front. -/
def Value.Readable (depth : Nat) (v : Value) : Prop := v.height ≤ depth ∧ v.Unreserved

theorem readable_scalar {v : Value} (h : v.height = 0) (depth : Nat) : v.Readable depth :=
  ⟨by omega, fun members hcontains => absurd hcontains (Value.not_contains_object h members)⟩

section Parts

variable {parse : String → Except String Value} {limit depth : Nat} {t : List Char}
  {r : Value × List Char}

/-- A list that is read is readable if its elements are as far as they are read. -/
theorem readable_array {items : List Value}
    (hpart : ∀ v ∈ items, ∀ {d t a s}, EndsNumber t →
      readValueWith parse limit d (v.print.toList ++ t) = .ok (a, s) → v.Readable d ∧ s = t)
    (h : readValueWith parse limit depth ((Value.array items).print.toList ++ t) = .ok r) :
    (Value.array items).Readable depth := by
  rw [toList_print_array, List.cons_append, List.append_assoc, List.singleton_append] at h
  cases depth with
  | zero =>
    rw [readValueWith_zero (Or.inl rfl) (skipBlanks_cons rfl _)] at h
    cases h
  | succ depth =>
    rw [readValueWith_array depth (skipBlanks_cons rfl _), bind_eq_ok] at h
    obtain ⟨⟨us, s⟩, hitems, -⟩ := h
    -- Each item is readable at the depth that the brackets have left.
    have hall : ∀ v ∈ items, v.Readable depth :=
      readElements_inv (fun v : Value => v.print.toList) items (fun v _ => beginsValue_print v)
        (fun v hv => hpart v hv) hitems
    refine ⟨Nat.succ_le_succ (itemsHeight_le fun v hv => (hall v hv).1), ?_⟩
    intro members hcontains
    cases hcontains with
    | item hv hu => exact (hall _ hv).2 members hu

/-- An object is not read if it has the embedding name in front of others, because another member
follows what is taken for an embedded text. -/
theorem readValueWith_reserved_ne_ok {m m' : String × Value} {rest : List (String × Value)}
    (hname : m.1 = embeddingName)
    (hlimit : (Value.object (m :: m' :: rest)).print.toList.length ≤ limit) :
    readValueWith parse limit depth
      ((Value.object (m :: m' :: rest)).print.toList ++ t) ≠ .ok r := by
  intro h
  have hlength := length_member (List.mem_cons_self (a := m) (l := m' :: rest))
  have hkey : (printString m.1).toList.length ≤ limit := by omega
  rw [toList_print_object, List.cons_append, List.append_assoc, List.singleton_append] at h
  cases depth with
  | zero =>
    rw [readValueWith_zero (Or.inr rfl) (skipBlanks_cons rfl _)] at h
    cases h
  | succ depth =>
    rw [readValueWith_object depth (skipBlanks_cons rfl _),
      afterEmbeddingName?_reserved (fun v : Value => v.print.toList) hname _ hkey t] at h
    exact readEmbedded_print_ne_ok (by omega) _ _ h

/-- An object that is read is readable if its values are as far as they are read. -/
theorem readable_object {members : List (String × Value)}
    (hunwrapped : ∀ m, members = [m] → m.1 ≠ embeddingName)
    (hlimit : (Value.object members).print.toList.length ≤ limit)
    (hpart : ∀ m ∈ members, ∀ {d t a s}, EndsNumber t →
      readValueWith parse limit d (m.2.print.toList ++ t) = .ok (a, s) → m.2.Readable d ∧ s = t)
    (h : readValueWith parse limit depth ((Value.object members).print.toList ++ t) = .ok r) :
    (Value.object members).Readable depth := by
  have hname : ∀ m ∈ members.head?, m.1 ≠ embeddingName := by
    intro m hm hreserved
    cases members with
    | nil => cases hm
    | cons m' rest =>
      obtain rfl := Option.some.inj hm
      -- alone it would have been an embedded text; with others it is refused
      cases rest with
      | nil => exact hunwrapped m' rfl hreserved
      | cons m₂ rest => exact readValueWith_reserved_ne_ok hreserved hlimit h
  have hkey : ∀ m ∈ members, (printString m.1).toList.length ≤ limit := fun m hm =>
    Nat.le_trans (Nat.le_of_lt (length_member hm).1) hlimit
  rw [toList_print_object, List.cons_append, List.append_assoc, List.singleton_append] at h
  cases depth with
  | zero =>
    rw [readValueWith_zero (Or.inr rfl) (skipBlanks_cons rfl _)] at h
    cases h
  | succ depth =>
    rw [readValueWith_object depth (skipBlanks_cons rfl _),
      afterEmbeddingName?_separated (fun v : Value => v.print.toList) members hkey hname t] at h
    dsimp only at h
    rw [bind_eq_ok] at h
    obtain ⟨⟨us, s⟩, hmembers, -⟩ := h
    have hall : ∀ m ∈ members, m.2.Readable depth :=
      readMembers_inv (p := fun v => v.Readable depth) (fun v : Value => v.print.toList) members
        hkey
        (fun m hm => hpart m hm) hmembers
    refine ⟨Nat.succ_le_succ (membersHeight_le fun m hm => (hall m hm).1), ?_⟩
    intro members' hcontains
    cases hcontains with
    | self => exact hname
    | member hm hu => exact (hall _ hm).2 members' hu

end Parts

/-- What is readable is read up to its end. -/
theorem Value.Readable.rest_eq {v : Value} {parse : String → Except String Value}
    {limit depth : Nat} (hreadable : v.Readable depth) (hwhole : v.WholeNumbers)
    (hordered : v.Ordered) (hlimit : v.print.toList.length ≤ limit) {t : List Char} {a : Value}
    {s : List Char} (ht : EndsNumber t)
    (h : readValueWith parse limit depth (v.print.toList ++ t) = .ok (a, s)) : s = t := by
  have hexact := readValueWith_print v hwhole hordered hreadable.2 parse hlimit hreadable.1 ht
  rw [hexact] at h
  cases h
  rfl

/-- **A printed value that is read** is nested no deeper than can be read, and no object in it has
the embedding name in front. -/
theorem readable_of_read (v : Value) (hwhole : v.WholeNumbers) (hordered : v.Ordered)
    (hunwrapped : v.Unwrapped) {parse : String → Except String Value} {limit depth : Nat}
    (hlimit : v.print.toList.length ≤ limit) {t : List Char} {r : Value × List Char}
    (ht : EndsNumber t) (h : readValueWith parse limit depth (v.print.toList ++ t) = .ok r) :
    v.Readable depth := by
  induction v using Value.inductionOn generalizing depth t r with
  | null => exact readable_scalar rfl depth
  | bool b => exact readable_scalar rfl depth
  | number n => exact readable_scalar rfl depth
  | string s => exact readable_scalar rfl depth
  | array items ih =>
    refine readable_array (fun v hv d t a s ht hread => ?_) h
    have hlength := length_item hv
    have hwhole' : v.WholeNumbers := fun n hn => hwhole n (.item hv hn)
    have hordered' : v.Ordered := fun ms hms => hordered ms (.item hv hms)
    -- the element inherits what is known of the list
    have hreadable := ih v hv hwhole' hordered' (fun m hm => hunwrapped m (.item hv hm))
      (by omega) ht hread
    exact ⟨hreadable, hreadable.rest_eq hwhole' hordered' (by omega) ht hread⟩
  | object members ih =>
    have hlone : ∀ m, members = [m] → m.1 ≠ embeddingName := by
      rintro m rfl
      exact hunwrapped m (.self _)
    refine readable_object hlone hlimit (fun m hm d t a s ht hread => ?_) h
    have hlength := length_member hm
    have hwhole' : m.2.WholeNumbers := fun n hn => hwhole n (.member hm hn)
    have hordered' : m.2.Ordered := fun ms hms => hordered ms (.member hm hms)
    have hreadable := ih m hm hwhole' hordered' (fun m' hm' => hunwrapped m' (.member hm hm'))
      (by omega) ht hread
    exact ⟨hreadable, hreadable.rest_eq hwhole' hordered' (by omega) ht hread⟩

/-- **A printed value is the value that its text spells** if and only if it is nested no deeper than
can be read and no object in it has the embedding name in front. -/
theorem parse_print_iff (v : Value) (hwhole : v.WholeNumbers) (hordered : v.Ordered)
    (hunwrapped : v.Unwrapped) :
    Value.parse v.print = .ok v ↔ v.height ≤ maxDepth ∧ v.Unreserved := by
  constructor
  · intro h
    rw [Value.parse, readAll, bind_eq_ok] at h
    obtain ⟨r, hread, -⟩ := h
    rw [← List.append_nil v.print.toList] at hread
    exact readable_of_read v hwhole hordered hunwrapped (by simp) endsNumber_nil hread
  · rintro ⟨hdepth, hunreserved⟩
    exact parse_print v hwhole hordered hunreserved hdepth

end WsGateway.Json
