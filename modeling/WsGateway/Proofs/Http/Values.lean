import WsGateway.Http.Message

/-!
# Header values

A header value is a text if its octets are those of visible characters of ASCII, spaces and tabs;
it is then the text that has just these octets (`Http.Shows`, `headerText?_eq_some_iff`). The rest
is bookkeeping on header fields: what setting or adding a value does to the values of each name.
-/

namespace WsGateway

open Text (Octets)

/-! ## Octets of texts -/

namespace Text

/-- Collecting the octets of an array from the front. -/
theorem toList_loop (b : ByteArray) (i : Nat) (front : List UInt8) :
    ByteArray.toList.loop b i front = front.reverse ++ b.data.toList.drop i := by
  fun_induction ByteArray.toList.loop b i front with
  | case1 i front hlt ih =>
    have hget : b.get! i = b.data[i] := getElem!_pos b.data i hlt
    rw [ih, hget, List.drop_eq_getElem_cons (i := i) hlt, List.reverse_cons, List.append_assoc]
    rfl
  | case2 i front hlt =>
    rw [List.drop_eq_nil_of_le (Nat.le_of_not_lt hlt), List.append_nil]

theorem octets_eq_data (s : String) : octets s = s.toByteArray.data.toList :=
  toList_loop s.toByteArray 0 []

/-- A text is known by its octets. -/
theorem octets_inj {s t : String} : octets s = octets t ↔ s = t := by
  constructor
  · intro h
    rw [octets_eq_data, octets_eq_data] at h
    exact String.toByteArray_inj.mp (ByteArray.ext (Array.toList_inj.mp h))
  · rintro rfl
    rfl

/-- An ASCII text has one octet for each character. -/
theorem flatMap_utf8EncodeChar {cs : List Char} (h : ∀ c ∈ cs, c.toNat < 128) :
    cs.flatMap String.utf8EncodeChar = cs.map fun c => UInt8.ofNat c.toNat := by
  induction cs with
  | nil => rfl
  | cons c cs ih =>
    have hone : String.utf8EncodeChar c = [UInt8.ofNat c.toNat] :=
      if_pos (Nat.le_of_lt_succ (h c List.mem_cons_self))
    rw [List.flatMap_cons, List.map_cons, hone, ih fun d hd => h d (List.mem_cons_of_mem _ hd)]
    rfl

/-- Each character of ASCII is one octet. -/
theorem octets_of_ascii {s : String} (h : ∀ c ∈ s.toList, c.toNat < 128) :
    octets s = s.toList.map fun c => UInt8.ofNat c.toNat := by
  have hbytes : s.toByteArray = s.toList.utf8Encode := by
    rw [← String.toByteArray_ofList, String.ofList_toList]
  rw [octets_eq_data, hbytes, List.utf8Encode, List.toList_data_toByteArray,
    flatMap_utf8EncodeChar h]

theorem toNat_ofNat : ∀ n < 128, (Char.ofNat n).toNat = n := by
  decide

/-- Octets of ASCII are those of the text with one character for each of them. -/
theorem octets_ofLatin {bytes : Octets} (h : ∀ o ∈ bytes, o < 128) :
    octets (ofLatin bytes) = bytes := by
  have hchars : (ofLatin bytes).toList = bytes.map fun o => Char.ofNat o.toNat :=
    String.toList_ofList
  have hvalue : ∀ o ∈ bytes, (Char.ofNat o.toNat).toNat = o.toNat := fun o ho =>
    toNat_ofNat _ (h o ho)
  have hascii : ∀ c ∈ (ofLatin bytes).toList, c.toNat < 128 := by
    rw [hchars]
    intro c hc
    obtain ⟨o, ho, rfl⟩ := List.mem_map.mp hc
    rw [hvalue o ho]
    exact h o ho
  rw [octets_of_ascii hascii, hchars, List.map_map]
  refine (List.map_congr_left fun o ho => ?_).trans (List.map_id bytes)
  show UInt8.ofNat (Char.ofNat o.toNat).toNat = o
  rw [hvalue o ho, UInt8.ofNat_toNat]

end Text

namespace Http

/-! ## Values that are texts -/

/-- The octet is that of a visible character of ASCII, a space or a tab. -/
def Visible (o : UInt8) : Prop := 32 ≤ o ∧ o < 127 ∨ o = 9

/-- The header value is the text, in visible characters, spaces and tabs. -/
def Shows (value : Octets) (text : String) : Prop :=
  (∀ o ∈ value, Visible o) ∧ Text.octets text = value

/-- The check of a header value is that all of its octets are visible. -/
theorem visible_iff {value : Octets} :
    (value.all fun o => (32 ≤ o && o < 127) || o == 9) = true ↔ ∀ o ∈ value, Visible o := by
  simp only [List.all_eq_true, Bool.or_eq_true, Bool.and_eq_true, decide_eq_true_eq, beq_iff_eq,
    Visible]

/-- A visible octet is an ASCII one. -/
theorem Visible.lt {o : UInt8} (h : Visible o) : o < 128 := by
  rcases h with ⟨-, hlt⟩ | rfl
  · exact Nat.lt_succ_of_lt hlt
  · decide

/-- **The text of a header value.** -/
theorem headerText?_eq_some_iff {value : Octets} {text : String} :
    headerText? value = some text ↔ Shows value text := by
  unfold headerText? Shows
  rw [← visible_iff]
  split
  · next hvisible =>
    -- Visible octets are ASCII, so the text has the very octets of the value.
    have hbytes : Text.octets (Text.ofLatin value) = value :=
      Text.octets_ofLatin fun o ho => (visible_iff.mp hvisible o ho).lt
    constructor
    · intro h
      cases h
      exact ⟨hvisible, hbytes⟩
    · rintro ⟨-, htext⟩
      exact congrArg some (Text.octets_inj.mp (hbytes.trans htext.symm))
  · next hhidden =>
    constructor
    · intro h
      cases h
    · rintro ⟨hvisible, -⟩
      exact absurd hvisible hhidden

/-- The octets of visible characters are a value that is their text. -/
theorem shows_headerValue {text : String}
    (h : ∀ c ∈ text.toList, 32 ≤ c.toNat ∧ c.toNat < 127) : Shows (headerValue text) text := by
  refine ⟨fun o ho => ?_, rfl⟩
  have hascii : ∀ c ∈ text.toList, c.toNat < 128 := fun c hc => Nat.lt_succ_of_lt (h c hc).2
  rw [headerValue, Text.octets_of_ascii hascii] at ho
  obtain ⟨c, hc, rfl⟩ := List.mem_map.mp ho
  obtain ⟨hlow, hhigh⟩ := h c hc
  left
  have hsize : c.toNat < UInt8.size := Nat.lt_trans hhigh (by decide)
  rw [UInt8.le_iff_toNat_le, UInt8.lt_iff_toNat_lt, UInt8.toNat_ofNat_of_lt' hsize]
  exact ⟨hlow, hhigh⟩

/-- A value shows one text. -/
theorem Shows.eq {value : Octets} {text text' : String} (h : Shows value text)
    (h' : Shows value text') : text = text' :=
  Text.octets_inj.mp (h.2.trans h'.2.symm)

/-! ## Values of a name -/

namespace Headers

variable {h : Headers} {name other : String} {value : Octets}

/-- The values of a name in joined headers are joined. -/
theorem all_concat (h more : Headers) (name : String) :
    all (h ++ more) name = h.all name ++ all more name := by
  unfold all
  rw [List.filter_append, List.map_append]

theorem all_singleton_self : all [(name, value)] name = [value] := by
  unfold all
  rw [List.filter_cons_of_pos (by simp)]
  rfl

theorem all_singleton_of_ne (hne : name ≠ other) : all [(name, value)] other = [] := by
  unfold all
  rw [List.filter_cons_of_neg (by simpa using hne)]
  rfl

/-- Taking out the values of a name leaves those of all others. -/
theorem all_filter_of_ne (hne : other ≠ name) :
    all (h.filter (·.1 != name)) other = h.all other := by
  unfold all
  rw [List.filter_filter]
  congr 2
  funext e
  by_cases heq : e.1 = other
  · simp [heq, hne]
  · simp [heq]

theorem all_filter_self : all (h.filter (·.1 != name)) name = [] := by
  unfold all
  rw [List.filter_filter, List.map_eq_nil_iff, List.filter_eq_nil_iff]
  intro e _
  simp

/-- A header that is set has one value. -/
theorem all_set_self : (h.set name value).all name = [value] := by
  unfold set
  rw [all_concat, all_filter_self, all_singleton_self, List.nil_append]

/-- Setting a header leaves the others alone. -/
theorem all_set_of_ne (hne : other ≠ name) : (h.set name value).all other = h.all other := by
  unfold set
  rw [all_concat, all_filter_of_ne hne, all_singleton_of_ne hne.symm, List.append_nil]

/-- An appended value stands behind those the header has. -/
theorem all_append_self : (h.append name value).all name = h.all name ++ [value] := by
  unfold append
  rw [all_concat, all_singleton_self]

/-- Appending to a header leaves the others alone. -/
theorem all_append_of_ne (hne : name ≠ other) : (h.append name value).all other = h.all other := by
  unfold append
  rw [all_concat, all_singleton_of_ne hne, List.append_nil]

/-- A name that is not contained has no values. -/
theorem contains_eq_false_iff : h.contains name = false ↔ h.all name = [] := by
  unfold contains first?
  rw [Option.isSome_eq_false_iff, Option.isNone_iff_eq_none, List.head?_eq_none_iff]

end Headers

end Http

end WsGateway
