import WsGateway.Proofs.Json.Composition
import WsGateway.Proofs.Json.Heads
import WsGateway.Proofs.Json.Locality.Nested
import WsGateway.Proofs.Json.Nesting

/-!
# Printed values

The text of a value is always of a form that can be skipped (`skips_print`), whatever numbers stand
in it and however deep it is nested. It is read back as the same value (`readValueWith_print`) if
its numbers are whole, its members are in order, no object looks like an embedded text, and it is
not nested too deep. Both are inductions on the value.
-/

namespace WsGateway.Json

/-! ## The text of a value -/

/-- An array is printed as its items between brackets, separated by commas. -/
theorem toList_print_array (items : List Value) :
    (Value.array items).print.toList =
      '[' :: (commaSeparated (items.map fun v => v.print.toList) ++ [']']) := by
  have hopen : "[".toList = ['['] := rfl
  have hcomma : ",".toList = [','] := rfl
  have hclose : "]".toList = [']'] := rfl
  rw [Value.print, itemTexts_eq_map, String.toList_append, String.toList_append,
    String.toList_intercalate, hopen, hcomma, hclose, intercalate_comma, List.map_map]
  rfl

/-- An object is printed as its members between braces, separated by commas. -/
theorem toList_print_object (members : List (String × Value)) :
    (Value.object members).print.toList =
      '\x7b' :: (commaSeparated (members.map fun m => memberText m.1 m.2.print.toList)
        ++ ['\x7d']) := by
  have hopen : "\x7b".toList = ['\x7b'] := rfl
  have hcomma : ",".toList = [','] := rfl
  have hcolon : ":".toList = [':'] := rfl
  have hclose : "\x7d".toList = ['\x7d'] := rfl
  have hmember : ∀ m : String × Value, (printString m.1 ++ ":" ++ m.2.print).toList =
      memberText m.1 m.2.print.toList := by
    intro m
    simp only [String.toList_append, hcolon, memberText, List.append_assoc, List.singleton_append]
  rw [Value.print, memberTexts_eq_map, String.toList_append, String.toList_append,
    String.toList_intercalate, hopen, hcomma, hclose, intercalate_comma, List.map_map]
  simp only [Function.comp_def, hmember]
  rfl

/-- A printed value begins as a value does. -/
theorem beginsValue_print (v : Value) : BeginsValue v.print.toList := by
  cases v with
  | null => exact ⟨'n', ['u', 'l', 'l'], rfl, rfl, by decide⟩
  | bool b =>
    cases b with
    | true => exact ⟨'t', ['r', 'u', 'e'], rfl, rfl, by decide⟩
    | false => exact ⟨'f', ['a', 'l', 's', 'e'], rfl, rfl, by decide⟩
  | number n =>
    obtain ⟨c, cs, htext, hc⟩ := exists_cons_printNumber n
    refine ⟨c, cs, htext, isBlank_of_number hc, ?_⟩
    rintro rfl
    revert hc
    decide
  | string s => exact ⟨'"', _, toList_printString s, rfl, by decide⟩
  | array items => exact ⟨'[', _, toList_print_array items, rfl, by decide⟩
  | object members => exact ⟨'\x7b', _, toList_print_object members, rfl, by decide⟩

theorem BeginsValue.length_pos {text : List Char} (h : BeginsValue text) : 0 < text.length := by
  obtain ⟨c, cs, rfl, -, -⟩ := h
  exact Nat.succ_pos _

/-! ## Lengths

A text is longer than the texts inside it, and longer than there are such texts. -/

theorem length_le_commaSeparated {xs : List (List Char)} {x : List Char} (h : x ∈ xs) :
    x.length ≤ (commaSeparated xs).length := by
  cases xs with
  | nil => exact absurd h List.not_mem_nil
  | cons y ys =>
    rw [commaSeparated, List.length_append]
    rcases List.mem_cons.mp h with rfl | h
    · exact Nat.le_add_right _ _
    · obtain ⟨before, after, rfl⟩ := List.append_of_mem h
      simp only [List.flatMap_append, List.flatMap_cons, List.length_append, List.length_cons]
      omega

/-- A text is at least as long as the number of its parts, so that fuel by length suffices. -/
theorem count_le_commaSeparated (xs : List (List Char)) (h : ∀ x ∈ xs, 0 < x.length) :
    xs.length ≤ (commaSeparated xs).length := by
  cases xs with
  | nil => exact Nat.zero_le _
  | cons y ys =>
    have hy := h y List.mem_cons_self
    have hys : ys.length ≤ (ys.flatMap fun z => ',' :: z).length := by
      clear h
      induction ys with
      | nil => exact Nat.zero_le _
      | cons z zs ih =>
        simp only [List.flatMap_cons, List.length_append, List.length_cons]
        omega
    rw [commaSeparated, List.length_append, List.length_cons]
    omega

theorem length_item {items : List Value} {v : Value} (h : v ∈ items) :
    v.print.toList.length < (Value.array items).print.toList.length := by
  have hle := length_le_commaSeparated
    (List.mem_map_of_mem (f := fun v : Value => v.print.toList) h)
  rw [toList_print_array, List.length_cons, List.length_append]
  omega

theorem count_items (items : List Value) :
    items.length < (Value.array items).print.toList.length := by
  have hle := count_le_commaSeparated (items.map fun v => v.print.toList) (by
    intro x hx
    obtain ⟨v, -, rfl⟩ := List.mem_map.mp hx
    exact (beginsValue_print v).length_pos)
  rw [List.length_map] at hle
  rw [toList_print_array, List.length_cons, List.length_append]
  omega

/-- Separated members are longer than each of their names and of the texts of their values. -/
theorem length_le_separated {β : Type} (text : β → List Char) {members : List (String × β)}
    {m : String × β} (h : m ∈ members) :
    (printString m.1).toList.length + (text m.2).length <
      (commaSeparated (members.map fun m => memberText m.1 (text m.2))).length := by
  have hle := length_le_commaSeparated
    (List.mem_map_of_mem (f := fun m : String × β => memberText m.1 (text m.2)) h)
  rw [memberText, List.length_append, List.length_cons] at hle
  omega

theorem count_le_separated {β : Type} (text : β → List Char) (members : List (String × β)) :
    members.length ≤ (commaSeparated (members.map fun m => memberText m.1 (text m.2))).length := by
  have hle := count_le_commaSeparated (members.map fun m => memberText m.1 (text m.2)) (by
    intro x hx
    obtain ⟨m, -, rfl⟩ := List.mem_map.mp hx
    rw [memberText, List.length_append, List.length_cons]
    omega)
  rw [List.length_map] at hle
  exact hle

theorem length_member {members : List (String × Value)} {m : String × Value} (h : m ∈ members) :
    (printString m.1).toList.length < (Value.object members).print.toList.length ∧
      m.2.print.toList.length < (Value.object members).print.toList.length := by
  have hlength := length_le_separated (fun v : Value => v.print.toList) h
  rw [toList_print_object, List.length_cons, List.length_append]
  omega

theorem count_members (members : List (String × Value)) :
    members.length < (Value.object members).print.toList.length := by
  have hle := count_le_separated (fun v : Value => v.print.toList) members
  rw [toList_print_object, List.length_cons, List.length_append]
  omega

/-! ## Skipping -/

/-- **Every printed value can be skipped.** -/
theorem skips_print (v : Value) {limit depth : Nat} (hlimit : v.print.toList.length ≤ limit)
    (hdepth : v.print.toList.length ≤ depth) :
    Skips (skipNested limit depth) v.print.toList := by
  induction v using Value.inductionOn generalizing depth with
  | null =>
    intro t _
    have htext : Value.null.print.toList = ['n', 'u', 'l', 'l'] := rfl
    rw [htext, List.cons_append, skipNested_null depth (skipBlanks_cons rfl _)]
    rfl
  | bool b =>
    intro t _
    cases b with
    | true =>
      have htext : (Value.bool true).print.toList = ['t', 'r', 'u', 'e'] := rfl
      rw [htext, List.cons_append, skipNested_true depth (skipBlanks_cons rfl _)]
      rfl
    | false =>
      have htext : (Value.bool false).print.toList = ['f', 'a', 'l', 's', 'e'] := rfl
      rw [htext, List.cons_append, skipNested_false depth (skipBlanks_cons rfl _)]
      rfl
  | number n =>
    intro t ht
    obtain ⟨c, cs, htext, hc⟩ := exists_cons_printNumber n
    obtain ⟨c', cs', htext', hblank, -⟩ := beginsValue_print (.number n)
    obtain ⟨rfl, rfl⟩ := List.cons.inj (htext.symm.trans htext')
    have hskip := skipNumber_print n ht
    rw [htext, List.cons_append] at hskip
    rw [htext', List.cons_append, skipNested_number depth hc (skipBlanks_cons hblank _)]
    exact hskip
  | string s =>
    intro t _
    have htext : (Value.string s).print.toList = '"' :: (escaped s.toList ++ ['"']) :=
      toList_printString s
    rw [htext, List.cons_append, List.append_assoc,
      skipNested_string depth (skipBlanks_cons rfl _)]
    exact skipString_escaped s hlimit t
  | array items ih =>
    intro t _
    obtain ⟨depth, rfl⟩ : ∃ d, depth = d + 1 := ⟨depth - 1, by have := count_items items; omega⟩
    -- each level of brackets takes two characters at least, so the length is depth enough
    have hcount := count_items items
    rw [toList_print_array, List.cons_append, List.append_assoc,
      skipNested_array depth (skipBlanks_cons rfl _)]
    apply skipElements_separated
    · intro x hx
      obtain ⟨v, -, rfl⟩ := List.mem_map.mp hx
      exact beginsValue_print v
    · intro x hx
      obtain ⟨v, hv, rfl⟩ := List.mem_map.mp hx
      have hlength := length_item hv
      exact ih v hv (by omega) (by omega)
    · rw [List.length_map]
      omega
  | object members ih =>
    intro t _
    obtain ⟨depth, rfl⟩ : ∃ d, depth = d + 1 :=
      ⟨depth - 1, by have := count_members members; omega⟩
    have hcount := count_members members
    rw [toList_print_object, List.cons_append, List.append_assoc,
      skipNested_object depth (skipBlanks_cons rfl _)]
    refine skipMembers_separated (fun v : Value => v.print.toList) members ?_ ?_ (by omega) t
    · intro m hm
      have hlength := length_member hm
      omega
    · intro m hm
      have hlength := length_member hm
      exact ih m hm (by omega) (by omega)

/-- A value is kept as the text that was printed for it. -/
theorem readVerbatim_print (v : Value) {limit : Nat} (hlimit : v.print.toList.length ≤ limit)
    {t : List Char} (ht : EndsNumber t) :
    readVerbatim limit (v.print.toList ++ t) = .ok (v.print, t) := by
  obtain ⟨c, cs, htext, hblank, -⟩ := beginsValue_print v
  have hblanks : skipBlanks (v.print.toList ++ t) = v.print.toList ++ t := by
    rw [htext]
    exact skipBlanks_cons hblank _
  have hskip : skipValue limit (v.print.toList ++ t) = .ok t :=
    skips_print v hlimit (by omega) t ht
  rw [readVerbatim, hblanks]
  simp only [hskip, bind, Except.bind, pure, Except.pure, List.length_append,
    Nat.add_sub_cancel, List.take_left, String.ofList_toList]

/-! ## Reading -/

/-- Members of which the first has another name do not look like an embedded text. -/
theorem afterEmbeddingName?_separated {β : Type} (text : β → List Char)
    (members : List (String × β)) {limit : Nat}
    (hkey : ∀ m ∈ members, (printString m.1).toList.length ≤ limit)
    (hne : ∀ m ∈ members.head?, m.1 ≠ embeddingName) (t : List Char) :
    afterEmbeddingName? limit
        (commaSeparated (members.map fun m => memberText m.1 (text m.2)) ++ '\x7d' :: t) =
      none := by
  cases members with
  | nil => rfl
  | cons m members =>
    rw [List.map_cons, commaSeparated, List.append_assoc, memberText_eq, afterEmbeddingName?,
      nextMember_true]
    dsimp only
    rw [readString_escaped m.1 (hkey m List.mem_cons_self)]
    dsimp only
    rw [if_neg (hne m rfl)]

/-- **An object is read from the texts of its values**, if it does not look like an embedded
text. -/
theorem readValueWith_members {β : Type} (text : β → List Char) (value : β → Value)
    {parse : String → Except String Value} {limit depth : Nat} (members : List (String × β))
    (hkey : ∀ m ∈ members, (printString m.1).toList.length ≤ limit)
    (hne : ∀ m ∈ members.head?, m.1 ≠ embeddingName)
    (hread : ∀ m ∈ members, ReadsAs (readValueWith parse limit depth) (text m.2) (value m.2))
    (hcount : members.length ≤ limit) (t : List Char) :
    readValueWith parse limit (depth + 1) ('\x7b' ::
        (commaSeparated (members.map fun m => memberText m.1 (text m.2)) ++ '\x7d' :: t)) =
      .ok (.ofMembers (mapValues value members), t) := by
  have hname := afterEmbeddingName?_separated text members hkey hne t
  have hmembers := readMembers_separated text value members hkey hread
    (by omega : members.length < limit + 1) t
  rw [readValueWith_object depth (skipBlanks_cons rfl _), hname, hmembers]
  rfl

/-- **A printed value is read back** if its numbers are whole, its members are in order, no object
has the embedding name in front, and it is nested no deeper than can be read. -/
theorem readValueWith_print (v : Value) (hwhole : v.WholeNumbers) (hordered : v.Ordered)
    (hunreserved : v.Unreserved) (parse : String → Except String Value) {limit depth : Nat}
    (hlimit : v.print.toList.length ≤ limit) (hdepth : v.height ≤ depth) {t : List Char}
    (ht : EndsNumber t) :
    readValueWith parse limit depth (v.print.toList ++ t) = .ok (v, t) := by
  induction v using Value.inductionOn generalizing depth t with
  | null =>
    have htext : Value.null.print.toList = ['n', 'u', 'l', 'l'] := rfl
    rw [htext, List.cons_append, readValueWith_null depth (skipBlanks_cons rfl _)]
    rfl
  | bool b =>
    cases b with
    | true =>
      have htext : (Value.bool true).print.toList = ['t', 'r', 'u', 'e'] := rfl
      rw [htext, List.cons_append, readValueWith_true depth (skipBlanks_cons rfl _)]
      rfl
    | false =>
      have htext : (Value.bool false).print.toList = ['f', 'a', 'l', 's', 'e'] := rfl
      rw [htext, List.cons_append, readValueWith_false depth (skipBlanks_cons rfl _)]
      rfl
  | number n =>
    obtain ⟨c, cs, htext, hc⟩ := exists_cons_printNumber n
    obtain ⟨c', cs', htext', hblank, -⟩ := beginsValue_print (.number n)
    obtain ⟨rfl, rfl⟩ := List.cons.inj (htext.symm.trans htext')
    have hread := readNumber_print (hwhole n (.self _)) ht
    rw [htext, List.cons_append] at hread
    rw [htext', List.cons_append, readValueWith_other depth (beginsOther_of_number hc)
      (skipBlanks_cons hblank _), if_pos hc, hread]
    rfl
  | string s =>
    have htext : (Value.string s).print.toList = '"' :: (escaped s.toList ++ ['"']) :=
      toList_printString s
    have hread := readString_escaped s hlimit t
    rw [htext, List.cons_append, List.append_assoc,
      readValueWith_string depth (skipBlanks_cons rfl _), List.singleton_append, hread]
    rfl
  | array items ih =>
    obtain ⟨depth, rfl⟩ : ∃ d, depth = d + 1 :=
      ⟨depth - 1, by rw [Value.height] at hdepth; omega⟩
    have hcount := count_items items
    -- the elements are shorter than the list and nested less deep
    have hread : ∀ v ∈ items, ReadsAs (readValueWith parse limit depth) v.print.toList v := by
      intro v hv
      have hlength := length_item hv
      exact readsAs_of_exact fun t ht => ih v hv (fun n hn => hwhole n (.item hv hn))
        (fun ms hms => hordered ms (.item hv hms)) (fun ms hms => hunreserved ms (.item hv hms))
        (by omega) (height_item hv hdepth) ht
    have hitems := readElements_separated (fun v : Value => v.print.toList) id items
      (fun v _ => beginsValue_print v) hread (by omega : items.length < limit + 1) t
    rw [toList_print_array, List.cons_append, List.append_assoc,
      readValueWith_array depth (skipBlanks_cons rfl _), List.singleton_append, hitems, List.map_id]
    rfl
  | object members ih =>
    obtain ⟨depth, rfl⟩ : ∃ d, depth = d + 1 :=
      ⟨depth - 1, by rw [Value.height] at hdepth; omega⟩
    have hcount := count_members members
    have hkey : ∀ m ∈ members, (printString m.1).toList.length ≤ limit := by
      intro m hm
      have hlength := length_member hm
      omega
    -- so are the values; and the first name is not the embedding name
    have hread : ∀ m ∈ members,
        ReadsAs (readValueWith parse limit depth) m.2.print.toList m.2 := by
      intro m hm
      have hlength := length_member hm
      exact readsAs_of_exact fun t ht => ih m hm (fun n hn => hwhole n (.member hm hn))
        (fun ms hms => hordered ms (.member hm hms))
        (fun ms hms => hunreserved ms (.member hm hms)) (by omega) (height_member hm hdepth) ht
    have hmembers := readValueWith_members (fun v : Value => v.print.toList) id members hkey
      (hunreserved members (.self _)) hread (by omega) t
    have hid : mapValues id members = members := by simp [mapValues]
    rw [toList_print_object, List.cons_append, List.append_assoc, List.singleton_append, hmembers,
      hid, ofMembers_eq, insertAll_of_ascending (hordered members (.self _))]

/-- A printed value that is neither a list nor an object is read back if it is no fraction. -/
theorem readValueWith_scalar {v : Value} (hheight : v.height = 0) (hwhole : v.WholeNumbers)
    (parse : String → Except String Value) {limit depth : Nat}
    (hlimit : v.print.toList.length ≤ limit) {t : List Char} (ht : EndsNumber t) :
    readValueWith parse limit depth (v.print.toList ++ t) = .ok (v, t) :=
  readValueWith_print v hwhole
    (fun members hcontains => absurd hcontains (Value.not_contains_object hheight members))
    (fun members hcontains => absurd hcontains (Value.not_contains_object hheight members)) parse
    hlimit (by omega) ht

/-- The value that a text spells, nested at most `depth` deep. -/
def Value.parseWithin (depth : Nat) (text : String) : Except Fault Value :=
  readAll (fun limit s => readValue limit depth s) text.toList

/-- What a text spells is found in it whatever follows. -/
theorem readsAs_of_parseWithin {depth limit : Nat} {text : String} {v : Value}
    (h : Value.parseWithin depth text = .ok v) (hlimit : text.toList.length ≤ limit) :
    ReadsAs (readValue limit depth) text.toList v := by
  rw [Value.parseWithin, readAll, bind_eq_ok] at h
  obtain ⟨⟨w, blanks⟩, hread, h⟩ := h
  rw [bind_eq_ok] at h
  obtain ⟨_, hend, h⟩ := h
  cases h
  intro t ht
  refine ⟨blanks, ?_, readValue_append hlimit ht depth hread⟩
  -- only blanks are left, because something else would be a fault
  rw [readEnd] at hend
  cases hblanks : skipBlanks blanks with
  | nil =>
    intro c hc
    have hall : blanks.takeWhile isBlank = blanks := by
      have hsplit := List.takeWhile_append_dropWhile (p := isBlank) (l := blanks)
      rwa [← skipBlanks, hblanks, List.append_nil] at hsplit
    rw [← hall] at hc
    exact List.all_eq_true.mp List.all_takeWhile c hc
  | cons c s =>
    rw [hblanks] at hend
    cases hend

/-- What the text of a value decodes to, nested at most `depth` deep. -/
def Value.reread (depth : Nat) (v : Value) : Value :=
  (Value.parseWithin depth v.print).toOption.getD .null

/-- **A printed object is read** if its values are and it does not look like an embedded text. -/
theorem readsAs_object {members : List (String × Value)} {limit depth : Nat}
    (hvalues : ∀ m ∈ members, ∃ v, Value.parseWithin depth m.2.print = .ok v)
    (hname : ∀ m ∈ members.head?, m.1 ≠ embeddingName)
    (hlimit : (Value.object members).print.toList.length ≤ limit) :
    ReadsAs (readValue limit (depth + 1)) (Value.object members).print.toList
      (.ofMembers (mapValues (Value.reread depth) members)) := by
  have hread : ∀ m ∈ members,
      ReadsAs (readValue limit depth) m.2.print.toList (m.2.reread depth) := by
    intro m hm
    obtain ⟨v, hv⟩ := hvalues m hm
    -- the value decodes on its own, and so it does inside the object
    have hreread : m.2.reread depth = v := by
      rw [Value.reread, hv]
      rfl
    have hlength := length_member hm
    rw [hreread]
    exact readsAs_of_parseWithin hv (by omega)
  have hcount := count_members members
  have hkey : ∀ m ∈ members, (printString m.1).toList.length ≤ limit := by
    intro m hm
    have hlength := length_member hm
    omega
  refine readsAs_of_exact fun t ht => ?_
  have hmembers := readValueWith_members (fun v : Value => v.print.toList) (Value.reread depth)
    members     hkey hname hread (by omega) t
  rw [toList_print_object, List.cons_append, List.append_assoc, List.singleton_append]
  exact hmembers

/-- An object that is printed with its members in any order is read with them put in. -/
theorem parse_print_members {members : List (String × Value)}
    (hwhole : ∀ m ∈ members, m.2.WholeNumbers) (hordered : ∀ m ∈ members, m.2.Ordered)
    (hunreserved : ∀ m ∈ members, m.2.Unreserved) (hname : ∀ m ∈ members.head?, m.1 ≠ embeddingName)
    (hdepth : ∀ m ∈ members, m.2.height < maxDepth) :
    Value.parse (Value.object members).print = .ok (.ofMembers members) := by
  -- The members are read one level deeper than the object, with the length of its text as the
  -- limit.
  have hread : ∀ m ∈ members,
      ReadsAs (readValue (Value.object members).print.toList.length (maxDepth - 1))
        m.2.print.toList m.2 := fun m hm =>
    readsAs_of_exact fun t ht => readValueWith_print m.2 (hwhole m hm) (hordered m hm)
      (hunreserved m hm) _ (Nat.le_of_lt (length_member hm).2) (Nat.le_pred_of_lt (hdepth m hm)) ht
  have hmembers := readValueWith_members (fun v : Value => v.print.toList) id members
    (fun m hm => Nat.le_of_lt (length_member hm).1) hname hread
    (Nat.le_of_lt (count_members members)) []
  have hid : mapValues id members = members := by simp [mapValues]
  rw [← toList_print_object, hid] at hmembers
  have hvalue : readValue (Value.object members).print.toList.length maxDepth
      (Value.object members).print.toList = .ok (.ofMembers members, []) := hmembers
  rw [Value.parse, readAll, hvalue]
  rfl

/-- A printed value is the value that its text spells. -/
theorem parse_print (v : Value) (hwhole : v.WholeNumbers) (hordered : v.Ordered)
    (hunreserved : v.Unreserved) (hdepth : v.height ≤ maxDepth) :
    Value.parse v.print = .ok v := by
  have hread := readValueWith_print v hwhole hordered hunreserved
    (parseEmbedded v.print.toList.length) (Nat.le_refl _) hdepth endsNumber_nil
  rw [List.append_nil] at hread
  rw [Value.parse, readAll, readValue, hread]
  rfl

end WsGateway.Json
