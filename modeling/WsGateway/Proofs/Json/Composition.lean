import WsGateway.Proofs.Json.Members
import WsGateway.Proofs.Json.Numerals
import WsGateway.Proofs.Json.Strings

/-!
# Texts put together from texts

A list is read if each of its elements is, and an object if each of its values is, no matter where
their texts come from: a reader need only find each of them whatever follows (`ReadsAs`). The main
statements, `readElements_separated` and `readMembers_separated`, are inductions on the items, which
go on behind an item and the blanks that it leaves.
-/

namespace WsGateway.Json

/-! ## Separated texts -/

def commaSeparated : List (List Char) → List Char
  | [] => []
  | x :: xs => x ++ xs.flatMap fun y => ',' :: y

theorem intercalate_comma (xs : List (List Char)) : [','].intercalate xs = commaSeparated xs := by
  cases xs with
  | nil => rfl
  | cons x xs =>
    induction xs generalizing x with
    | nil => simp [commaSeparated]
    | cons y ys ih =>
      rw [List.intercalate_cons_cons, ih]
      simp [commaSeparated]

/-- The text begins as a value does: neither with a blank nor with a closing bracket. -/
def BeginsValue (text : List Char) : Prop :=
  ∃ c cs, text = c :: cs ∧ isBlank c = false ∧ c ≠ ']'

/-- A reader finds a value in a text, whatever follows; it may leave blanks. -/
def ReadsAs {α : Type} (f : List Char → Except Fault (α × List Char)) (text : List Char) (a : α) :
    Prop :=
  ∀ t, EndsNumber t → ∃ blanks, (∀ c ∈ blanks, isBlank c) ∧ f (text ++ t) = .ok (a, blanks ++ t)

theorem readsAs_of_exact {α : Type} {f : List Char → Except Fault (α × List Char)}
    {text : List Char} {a : α} (h : ∀ t, EndsNumber t → f (text ++ t) = .ok (a, t)) :
    ReadsAs f text a :=
  fun t ht => ⟨[], by simp, h t ht⟩

/-- A skipper comes to the end of a text, whatever follows. -/
def Skips (f : List Char → Except Fault (List Char)) (text : List Char) : Prop :=
  ∀ t, EndsNumber t → f (text ++ t) = .ok t

theorem skipBlanks_blanks {blanks : List Char} (h : ∀ c ∈ blanks, isBlank c) (t : List Char) :
    skipBlanks (blanks ++ t) = skipBlanks t :=
  List.dropWhile_append_of_pos h

theorem skipBlanks_cons {c : Char} (h : isBlank c = false) (t : List Char) :
    skipBlanks (c :: t) = c :: t := by
  simp [skipBlanks, h]

/-- The comma in front of a text, and the bracket behind the last one, end every number. -/
theorem endsNumber_separated {c : Char} (hc : c = ']' ∨ c = '\x7d') (xs : List (List Char))
    (t : List Char) : EndsNumber ((xs.flatMap fun y => ',' :: y) ++ c :: t) := by
  cases xs with
  | nil => exact endsNumber_cons (Or.inr hc) t
  | cons x xs => exact endsNumber_cons (Or.inl rfl) _

/-! ## Lists -/

section Elements

variable {α β : Type} {f : List Char → Except Fault (α × List Char)} (text : β → List Char)
  (value : β → α)

/-- The first element stands directly behind the bracket. -/
theorem nextElement_true {x : List Char} (hx : BeginsValue x) (t : List Char) :
    nextElement true (x ++ t) = .ok (.item (x ++ t)) := by
  obtain ⟨c, cs, rfl, hblank, hclose⟩ := hx
  rw [List.cons_append, nextElement, skipBlanks_cons hblank]
  simp [hclose]

/-- A further element stands behind a comma. -/
theorem nextElement_comma {blanks : List Char} (h : ∀ c ∈ blanks, isBlank c) {x : List Char}
    (hx : BeginsValue x) (t : List Char) :
    nextElement false (blanks ++ ',' :: (x ++ t)) = .ok (.item (x ++ t)) := by
  obtain ⟨c, cs, rfl, hblank, hclose⟩ := hx
  rw [nextElement, skipBlanks_blanks h, skipBlanks_cons rfl, List.cons_append]
  simp [skipBlanks_cons hblank, hclose]

/-- A bracket ends the array, whether it has elements or not. -/
theorem nextElement_close (first : Bool) {blanks : List Char} (h : ∀ c ∈ blanks, isBlank c)
    (t : List Char) : nextElement first (blanks ++ ']' :: t) = .ok (.done t) := by
  rw [nextElement, skipBlanks_blanks h, skipBlanks_cons rfl]
  simp

/-- One round of the reader of elements: an element and then the rest. -/
theorem readElements_item {first : Bool} {s s' : List Char}
    (hstep : nextElement first s = .ok (.item s')) (n : Nat) :
    readElements f (n + 1) first s = (do
      let (a, s) ← f s'
      let (as, s) ← readElements f n false s
      pure (a :: as, s)) := by
  rw [readElements, hstep]
  rfl

/-- The elements behind the first one. -/
theorem readElements_rest (items : List β) (hbegin : ∀ b ∈ items, BeginsValue (text b))
    (hread : ∀ b ∈ items, ReadsAs f (text b) (value b)) {n : Nat} (hn : items.length < n)
    {blanks : List Char} (hblanks : ∀ c ∈ blanks, isBlank c) (t : List Char) :
    readElements f n false
        (blanks ++ (((items.map text).flatMap fun y => ',' :: y) ++ ']' :: t)) =
      .ok (items.map value, t) := by
  obtain ⟨n, rfl⟩ : ∃ k, n = k + 1 := ⟨n - 1, by omega⟩
  induction items generalizing n blanks with
  | nil =>
    simp only [List.map_nil, List.flatMap_nil, List.nil_append]
    rw [readElements, nextElement_close false hblanks]
    rfl
  | cons b items ih =>
    rw [List.length_cons] at hn
    obtain ⟨n, rfl⟩ : ∃ k, n = k + 1 := ⟨n - 1, by omega⟩
    -- the element may leave blanks, behind which the reader finds the next comma
    obtain ⟨blanks', hblanks', hb⟩ := hread b List.mem_cons_self _
      (endsNumber_separated (Or.inl rfl) (items.map text) t)
    have hrest := ih (fun b hb => hbegin b (List.mem_cons_of_mem _ hb))
      (fun b hb => hread b (List.mem_cons_of_mem _ hb)) hblanks' n (by omega)
    simp only [List.map_cons, List.flatMap_cons, List.cons_append, List.append_assoc]
    rw [readElements_item (nextElement_comma hblanks (hbegin b List.mem_cons_self) _)]
    simp only [bind, Except.bind, hb, hrest]
    rfl

/-- **A list is read if its elements are.** -/
theorem readElements_separated (items : List β) (hbegin : ∀ b ∈ items, BeginsValue (text b))
    (hread : ∀ b ∈ items, ReadsAs f (text b) (value b)) {n : Nat} (hn : items.length < n)
    (t : List Char) :
    readElements f n true (commaSeparated (items.map text) ++ ']' :: t) =
      .ok (items.map value, t) := by
  obtain ⟨n, rfl⟩ : ∃ k, n = k + 1 := ⟨n - 1, by omega⟩
  cases items with
  | nil => rfl
  | cons b items =>
    rw [List.length_cons] at hn
    obtain ⟨blanks, hblanks, hb⟩ := hread b List.mem_cons_self _
      (endsNumber_separated (Or.inl rfl) (items.map text) t)
    have hrest := readElements_rest text value items
      (fun b hb => hbegin b (List.mem_cons_of_mem _ hb))
      (fun b hb => hread b (List.mem_cons_of_mem _ hb)) (by omega : items.length < n) hblanks t
    rw [List.map_cons, commaSeparated, List.append_assoc,
      readElements_item (nextElement_true (hbegin b List.mem_cons_self) _)]
    simp only [bind, Except.bind, hb, hrest]
    rfl

theorem skipToElement_true {x : List Char} (hx : BeginsValue x) (t : List Char) :
    skipToElement true (x ++ t) = .ok (.item (x ++ t)) := by
  obtain ⟨c, cs, rfl, hblank, hclose⟩ := hx
  rw [List.cons_append, skipToElement, skipBlanks_cons hblank]
  simp [hclose]

/-- Elements behind commas are skipped one after the other, up to the bracket. -/
theorem skipElements_rest {skip : List Char → Except Fault (List Char)} (xs : List (List Char))
    (hskip : ∀ x ∈ xs, Skips skip x) {n : Nat} (hn : xs.length < n) (t : List Char) :
    skipElements skip n false ((xs.flatMap fun y => ',' :: y) ++ ']' :: t) = .ok t := by
  obtain ⟨n, rfl⟩ : ∃ k, n = k + 1 := ⟨n - 1, by omega⟩
  induction xs generalizing n with
  | nil => rfl
  | cons x xs ih =>
    rw [List.length_cons] at hn
    obtain ⟨n, rfl⟩ : ∃ k, n = k + 1 := ⟨n - 1, by omega⟩
    have hx := hskip x List.mem_cons_self _ (endsNumber_separated (Or.inl rfl) xs t)
    have hrest := ih (fun x hx => hskip x (List.mem_cons_of_mem _ hx)) n (by omega)
    have hstep : ∀ s, skipToElement false (',' :: s) = .ok (.item s) := fun _ => rfl
    simp only [List.flatMap_cons, List.cons_append, List.append_assoc]
    rw [skipElements, hstep]
    simp only [bind, Except.bind, hx, hrest]

/-- A list is skipped if its elements are. -/
theorem skipElements_separated {skip : List Char → Except Fault (List Char)}
    (xs : List (List Char)) (hbegin : ∀ x ∈ xs, BeginsValue x) (hskip : ∀ x ∈ xs, Skips skip x)
    {n : Nat} (hn : xs.length < n) (t : List Char) :
    skipElements skip n true (commaSeparated xs ++ ']' :: t) = .ok t := by
  obtain ⟨n, rfl⟩ : ∃ k, n = k + 1 := ⟨n - 1, by omega⟩
  cases xs with
  | nil => rfl
  | cons x xs =>
    rw [List.length_cons] at hn
    have hx := hskip x List.mem_cons_self _ (endsNumber_separated (Or.inl rfl) xs t)
    have hrest := skipElements_rest xs (fun x hx => hskip x (List.mem_cons_of_mem _ hx))
      (by omega : xs.length < n) t
    rw [commaSeparated, List.append_assoc, skipElements,
      skipToElement_true (hbegin x List.mem_cons_self)]
    simp only [bind, Except.bind, hx, hrest]

end Elements

/-! ## Objects -/

def memberText (key : String) (text : List Char) : List Char :=
  (printString key).toList ++ ':' :: text

/-- A member is its quoted key, a colon and its value. -/
theorem memberText_eq (key : String) (text t : List Char) :
    memberText key text ++ t = '"' :: (escaped key.toList ++ '"' :: ':' :: (text ++ t)) := by
  simp [memberText, toList_printString]

theorem readColon_cons (t : List Char) : readColon (':' :: t) = .ok t := rfl

section Members

variable {α β : Type} {f : List Char → Except Fault (α × List Char)} (text : β → List Char)
  (value : β → α) {limit : Nat}

theorem nextMember_true (t : List Char) : nextMember true ('"' :: t) = .ok (.item t) := rfl

theorem nextMember_false (t : List Char) : nextMember false (',' :: '"' :: t) = .ok (.item t) :=
  rfl

theorem nextMember_comma {blanks : List Char} (h : ∀ c ∈ blanks, isBlank c) (t : List Char) :
    nextMember false (blanks ++ ',' :: '"' :: t) = .ok (.item t) := by
  rw [nextMember, skipBlanks_blanks h, skipBlanks_cons rfl]
  rfl

/-- A brace ends the object, whether it has members or not. -/
theorem nextMember_close (first : Bool) {blanks : List Char} (h : ∀ c ∈ blanks, isBlank c)
    (t : List Char) : nextMember first (blanks ++ '\x7d' :: t) = .ok (.done t) := by
  rw [nextMember, skipBlanks_blanks h, skipBlanks_cons rfl]
  rfl

/-- A member is read by its name and the colon, and then its value is. -/
theorem readMembers_item {first : Bool} {s s' : List Char} (key : String)
    (hkey : (printString key).toList.length ≤ limit)
    (hstep : nextMember first s = .ok (.item (escaped key.toList ++ '"' :: ':' :: s'))) (n : Nat) :
    readMembers limit f (n + 1) first s = (do
      let (a, s) ← f s'
      let (members, s) ← readMembers limit f n false s
      pure ((key, a) :: members, s)) := by
  rw [readMembers, hstep]
  simp only [bind, Except.bind, readString_escaped key hkey, readColon_cons]

/-- The members behind the first one. -/
theorem readMembers_rest (members : List (String × β))
    (hkey : ∀ m ∈ members, (printString m.1).toList.length ≤ limit)
    (hread : ∀ m ∈ members, ReadsAs f (text m.2) (value m.2)) {n : Nat} (hn : members.length < n)
    {blanks : List Char} (hblanks : ∀ c ∈ blanks, isBlank c) (t : List Char) :
    readMembers limit f n false (blanks ++
        (((members.map fun m => memberText m.1 (text m.2)).flatMap fun y => ',' :: y) ++
          '\x7d' :: t)) =
      .ok (mapValues value members, t) := by
  obtain ⟨n, rfl⟩ : ∃ k, n = k + 1 := ⟨n - 1, by omega⟩
  induction members generalizing n blanks with
  | nil =>
    simp only [List.map_nil, List.flatMap_nil, List.nil_append]
    rw [readMembers, nextMember_close false hblanks]
    rfl
  | cons m members ih =>
    rw [List.length_cons] at hn
    obtain ⟨n, rfl⟩ : ∃ k, n = k + 1 := ⟨n - 1, by omega⟩
    -- as with elements, the value may leave blanks
    obtain ⟨blanks', hblanks', hm⟩ := hread m List.mem_cons_self _
      (endsNumber_separated (Or.inr rfl) (members.map fun m => memberText m.1 (text m.2)) t)
    have hrest := ih (fun m hm => hkey m (List.mem_cons_of_mem _ hm))
      (fun m hm => hread m (List.mem_cons_of_mem _ hm)) hblanks' n (by omega)
    simp only [List.map_cons, List.flatMap_cons, List.cons_append, List.append_assoc,
      memberText_eq]
    rw [readMembers_item m.1 (hkey m List.mem_cons_self) (nextMember_comma hblanks _)]
    simp only [bind, Except.bind, hm, hrest]
    rfl

/-- **An object is read if its values are.** -/
theorem readMembers_separated (members : List (String × β))
    (hkey : ∀ m ∈ members, (printString m.1).toList.length ≤ limit)
    (hread : ∀ m ∈ members, ReadsAs f (text m.2) (value m.2)) {n : Nat} (hn : members.length < n)
    (t : List Char) :
    readMembers limit f n true
        (commaSeparated (members.map fun m => memberText m.1 (text m.2)) ++ '\x7d' :: t) =
      .ok (mapValues value members, t) := by
  obtain ⟨n, rfl⟩ : ∃ k, n = k + 1 := ⟨n - 1, by omega⟩
  cases members with
  | nil => rfl
  | cons m members =>
    rw [List.length_cons] at hn
    obtain ⟨blanks, hblanks, hm⟩ := hread m List.mem_cons_self _
      (endsNumber_separated (Or.inr rfl) (members.map fun m => memberText m.1 (text m.2)) t)
    have hrest := readMembers_rest text value members
      (fun m hm => hkey m (List.mem_cons_of_mem _ hm))
      (fun m hm => hread m (List.mem_cons_of_mem _ hm)) (by omega : members.length < n) hblanks t
    rw [List.map_cons, commaSeparated, List.append_assoc, memberText_eq,
      readMembers_item m.1 (hkey m List.mem_cons_self) (nextMember_true _)]
    simp only [bind, Except.bind, hm, hrest]
    rfl

/-- Members behind commas are skipped one after the other, up to the brace. -/
theorem skipMembers_rest {skip : List Char → Except Fault (List Char)}
    (members : List (String × β))
    (hkey : ∀ m ∈ members, (printString m.1).toList.length ≤ limit)
    (hskip : ∀ m ∈ members, Skips skip (text m.2)) {n : Nat} (hn : members.length < n)
    (t : List Char) :
    skipMembers limit skip n false
        (((members.map fun m => memberText m.1 (text m.2)).flatMap fun y => ',' :: y) ++
          '\x7d' :: t) = .ok t := by
  obtain ⟨n, rfl⟩ : ∃ k, n = k + 1 := ⟨n - 1, by omega⟩
  induction members generalizing n with
  | nil => rfl
  | cons m members ih =>
    rw [List.length_cons] at hn
    obtain ⟨n, rfl⟩ : ∃ k, n = k + 1 := ⟨n - 1, by omega⟩
    have hm := hskip m List.mem_cons_self _
      (endsNumber_separated (Or.inr rfl) (members.map fun m => memberText m.1 (text m.2)) t)
    have hrest := ih (fun m hm => hkey m (List.mem_cons_of_mem _ hm))
      (fun m hm => hskip m (List.mem_cons_of_mem _ hm)) n (by omega)
    have hstep : ∀ s, skipToMember false (',' :: '"' :: s) = .ok (.item s) := fun _ => rfl
    simp only [List.map_cons, List.flatMap_cons, List.cons_append, List.append_assoc,
      memberText_eq]
    rw [skipMembers, hstep]
    simp only [bind, Except.bind, skipString_escaped m.1 (hkey m List.mem_cons_self),
      readColon_cons, hm, hrest]

/-- An object is skipped if its values are. -/
theorem skipMembers_separated {skip : List Char → Except Fault (List Char)}
    (members : List (String × β))
    (hkey : ∀ m ∈ members, (printString m.1).toList.length ≤ limit)
    (hskip : ∀ m ∈ members, Skips skip (text m.2)) {n : Nat} (hn : members.length < n)
    (t : List Char) :
    skipMembers limit skip n true
        (commaSeparated (members.map fun m => memberText m.1 (text m.2)) ++ '\x7d' :: t) =
      .ok t := by
  obtain ⟨n, rfl⟩ : ∃ k, n = k + 1 := ⟨n - 1, by omega⟩
  cases members with
  | nil => rfl
  | cons m members =>
    rw [List.length_cons] at hn
    have hm := hskip m List.mem_cons_self _
      (endsNumber_separated (Or.inr rfl) (members.map fun m => memberText m.1 (text m.2)) t)
    have hrest := skipMembers_rest text members (fun m hm => hkey m (List.mem_cons_of_mem _ hm))
      (fun m hm => hskip m (List.mem_cons_of_mem _ hm)) (by omega : members.length < n) t
    have hstep : ∀ s, skipToMember true ('"' :: s) = .ok (.item s) := fun _ => rfl
    rw [List.map_cons, commaSeparated, List.append_assoc, memberText_eq, skipMembers, hstep]
    simp only [bind, Except.bind, skipString_escaped m.1 (hkey m List.mem_cons_self),
      readColon_cons, hm, hrest]

end Members

end WsGateway.Json
