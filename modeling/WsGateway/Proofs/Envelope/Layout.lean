import WsGateway.Proofs.Envelope.FirstPass.Elements
import WsGateway.Proofs.Envelope.FirstPass.Members

/-!
# The layout of an envelope

An envelope has up to four parts: id, operation, type and payload. Which request it holds is decided
by these parts alone (`parse_layout`), and not by how they are laid out (`Parts.LaidOut`): as the
members of an object in any order, with other members and with blanks in between, or as the elements
of a list by their places. A text in which a part stands twice, or a list with a fifth element, is
no envelope (`Overfull`).
-/

namespace WsGateway

open Json LooseRequest

/-! ## Parts -/

/-- A well-formed JSON text without blanks around it. -/
structure Part where
  text : List Char
  wellFormed : WellFormed text
  tight : Tight text

namespace Part

def null : Part := ⟨"null".toList, .null, tight_of_all rfl⟩

/-- The part stands in a text, with blanks around it. -/
def Padded (x : Part) (text : List Char) : Prop :=
  ∃ before after, Blanks before ∧ Blanks after ∧ text = before ++ (x.text ++ after)

/-- What is read of a part that is the value of a member, if it can be read: nothing if it is
null. -/
def value? (x : Part) : Option (Option Value) :=
  (readAll (fun limit s => member limit memberDepth s) x.text).toOption

variable {x : Part} {text : List Char} {limit : Nat}

/-- A part stands in its own text. -/
theorem padded_self (x : Part) : x.Padded x.text :=
  ⟨[], [], blanks_nil, blanks_nil, by rw [List.append_nil, List.nil_append]⟩

theorem Padded.wellFormed (h : x.Padded text) : WellFormed text := by
  obtain ⟨before, after, hbefore, hafter, rfl⟩ := h
  exact .blanks hbefore x.wellFormed hafter

theorem Padded.length_le (h : x.Padded text) : x.text.length ≤ text.length := by
  obtain ⟨before, after, -, -, rfl⟩ := h
  simp only [List.length_append]
  omega

/-- Blanks around a part do not matter to a reader that skips them. -/
theorem Padded.readsAs {α : Type} {f : List Char → Except Fault (α × List Char)} {a : α}
    (h : x.Padded text) (hf : ∀ s, f (skipBlanks s) = f s) (hreads : ReadsAs f x.text a) :
    ReadsAs f text a := by
  obtain ⟨before, after, hbefore, hafter, rfl⟩ := h
  exact hreads.padded hf hbefore hafter

/-- A part that can be read alone is read in the same way in an envelope. -/
theorem readsAs_member (hvalue : x.value?.isSome) (h : x.Padded text)
    (hlimit : text.length ≤ limit) : ReadsAs (member limit memberDepth) text x.value?.join := by
  refine h.readsAs (member_skipBlanks limit memberDepth) fun t ht => ?_
  have hread : readAll (fun limit s => member limit memberDepth s) x.text = .ok x.value?.join := by
    unfold value? at hvalue ⊢
    cases hall : readAll (fun limit s => member limit memberDepth s) x.text with
    | error fault =>
      rw [hall] at hvalue
      cases hvalue
    | ok a => rfl
  obtain ⟨rest, hrest, hend⟩ := readAll_eq_ok_iff.mp hread
  have hlength := h.length_le
  exact ⟨rest, readEnd_eq_ok_iff.mp hend, member_append (by omega) ht hrest⟩

/-- Every part can be kept. -/
theorem readsAs_kept (h : x.Padded text) (hlimit : text.length ≤ limit) (depth : Nat) :
    ReadsAs (verbatim limit depth) text (keptText x.text) := by
  have hlength := h.length_le
  exact h.readsAs (verbatim_skipBlanks limit depth)
    (readsAs_verbatim x.wellFormed x.tight (by omega))

end Part

/-- The parts that an envelope has. -/
structure Parts where
  id : Option Part := none
  op : Option Part := none
  kind : Option Part := none
  payload : Option Part := none

namespace Parts

/-- The parts that are decoded at once can be. -/
structure Decodes (p : Parts) : Prop where
  id : ∀ x ∈ p.id, x.value?.isSome
  op : ∀ x ∈ p.op, x.value?.isSome
  kind : ∀ x ∈ p.kind, x.value?.isSome

/-- What is taken from the parts. -/
def loose (p : Parts) : LooseRequest where
  id := p.id.map fun x => x.value?.join
  op := p.op.map fun x => x.value?.join
  kind := p.kind.map fun x => x.value?.join
  payload := p.payload.map fun x => keptText x.text

/-- Where there is a part there is one text, with the part in it; where there is none there is no
text. -/
def Stands : Option Part → List (List Char) → Prop
  | none, texts => texts = []
  | some x, texts => ∃ text, texts = [text] ∧ x.Padded text

/-- A part in its place in a list: null stands for an absent one, and at the end of the list absent
ones may be missing. -/
def Ranked (part : Option Part) : Option (List Char) → Prop
  | none => part = none
  | some text => (part.getD .null).Padded text

/-- **A text has these parts.** In an object, each part is the value of the one member with its
name, wherever that stands. -/
inductive LaidOut (p : Parts) : List Char → Prop where
  | object {before gap after : List Char} {ms : List Member} (hbefore : Blanks before)
      (hgap : Blanks gap) (hafter : Blanks after) (hnames : ∀ m ∈ ms, (unquote? m.1).isSome)
      (hvalues : ∀ m ∈ ms, WellFormed m.2) (hid : Stands p.id (valuesOf "id" ms))
      (hop : Stands p.op (valuesOf "op" ms)) (hkind : Stands p.kind (valuesOf "type" ms))
      (hpayload : Stands p.payload (valuesOf "payload" ms)) :
      LaidOut p (before ++ '\x7b' :: (gap ++ (membersSource true ms ++ '\x7d' :: after)))
  | list {before gap after : List Char} {items : List (List Char)} (hbefore : Blanks before)
      (hgap : Blanks gap) (hafter : Blanks after) (hshort : items.length ≤ 4)
      (hid : Ranked p.id items[0]?) (hop : Ranked p.op items[1]?) (hkind : Ranked p.kind items[2]?)
      (hpayload : Ranked p.payload items[3]?) :
      LaidOut p (before ++ '[' :: (gap ++ (commaSeparated items ++ ']' :: after)))

/-- A text that has a part twice, or more elements than there are parts. -/
inductive Overfull : List Char → Prop where
  | repeated {before gap after : List Char} {ms : List Member} {key : String}
      (hbefore : Blanks before) (hgap : Blanks gap) (hnames : ∀ m ∈ ms, NameText m.1)
      (hvalues : ∀ m ∈ ms, WellFormed m.2) (hkey : key ∈ fieldNames)
      (htwice : 2 ≤ (valuesOf key ms).length) :
      Overfull (before ++ '\x7b' :: (gap ++ (membersSource true ms ++ '\x7d' :: after)))
  | fifth {before gap after : List Char} {items : List (List Char)} (hbefore : Blanks before)
      (hgap : Blanks gap) (hitems : ∀ item ∈ items, WellFormed item) (hlong : 5 ≤ items.length) :
      Overfull (before ++ '[' :: (gap ++ (commaSeparated items ++ ']' :: after)))

end Parts

/-! ## The first pass over the parts -/

section Filled

variable {α : Type} {holds : List Char → Option α → Prop} {part : Option Part}
  {f : Part → Option α}

/-- Where a part stands, one text under its name holds it. -/
theorem filled_of_stands {texts : List (List Char)} (h : Parts.Stands part texts)
    (hholds : ∀ x ∈ part, ∀ text ∈ texts, x.Padded text → holds text (f x)) :
    Filled holds none texts (part.map f) := by
  cases part with
  | none =>
    obtain rfl : texts = [] := h
    exact .kept none
  | some x =>
    obtain ⟨text, rfl, hpadded⟩ := h
    exact .found (hholds x rfl text List.mem_cons_self hpadded)

/-- In a list a part that is null counts as absent. -/
theorem filled_of_ranked {item : Option (List Char)} (h : Parts.Ranked part item)
    (hnull : f .null = none)
    (hholds : ∀ x, x ∈ part ∨ x = .null → ∀ text ∈ item, x.Padded text → holds text (f x)) :
    ∃ a, Filled holds none item.toList a ∧ a.join = (part.map f).join := by
  cases item with
  | none =>
    obtain rfl : part = none := h
    exact ⟨none, .kept none, rfl⟩
  | some text =>
    cases part with
    | none =>
      refine ⟨some (f .null), .found (hholds .null (.inr rfl) text rfl h), ?_⟩
      rw [hnull]
      rfl
    | some x => exact ⟨some (f x), .found (hholds x (.inl rfl) text rfl h), rfl⟩

end Filled

theorem Parts.Ranked.wellFormed {part : Option Part} {text : List Char}
    (h : Ranked part (some text)) : WellFormed text :=
  Part.Padded.wellFormed h

namespace LooseRequest

/-- An opening brace, behind blanks, begins an envelope with named members. -/
theorem read_object {limit : Nat} {before s : List Char} (hbefore : Blanks before) :
    read limit maxDepth (before ++ '\x7b' :: s) =
      readMembers limit memberDepth (limit + 1) true empty s := by
  rw [read, skipBlanks_blanks hbefore, skipBlanks_cons rfl]
  rfl

/-- An opening bracket, behind blanks, begins an envelope without names. -/
theorem read_list {limit : Nat} {before s : List Char} (hbefore : Blanks before) :
    read limit maxDepth (before ++ '[' :: s) = readElements limit memberDepth s := by
  rw [read, skipBlanks_blanks hbefore, skipBlanks_cons rfl]
  rfl

section Text

variable {text : String} {before gap after : List Char} {loose : LooseRequest}

/-- What an object is decoded to gathers its members by their names. -/
theorem gathers_of_decode {ms : List Member}
    (hs : text.toList = before ++ '\x7b' :: (gap ++ (membersSource true ms ++ '\x7d' :: after)))
    (hbefore : Blanks before) (hgap : Blanks gap) (hnames : ∀ m ∈ ms, NameText m.1)
    (hvalues : ∀ m ∈ ms, WellFormed m.2) (h : Json.decode read text = .ok loose) :
    Gathers (Found (member text.toList.length memberDepth))
      (Found (verbatim text.toList.length memberDepth)) empty ms loose := by
  obtain ⟨rest, hread, -⟩ := readAll_eq_ok_iff.mp h
  have hlength := congrArg List.length hs
  simp only [List.length_append, List.length_cons] at hlength
  rw [hs, read_object hbefore, ← hs] at hread
  refine (gathers_of_readMembers hnames hvalues hgap ?_ hread).1
  simp only [List.length_append, List.length_cons]
  omega

/-- What a list is decoded to has its elements by their places. -/
theorem ranks_of_decode {items : List (List Char)}
    (hs : text.toList = before ++ '[' :: (gap ++ (commaSeparated items ++ ']' :: after)))
    (hbefore : Blanks before) (hgap : Blanks gap) (hitems : ∀ item ∈ items, WellFormed item)
    (h : Json.decode read text = .ok loose) :
    Ranks (Found (member text.toList.length memberDepth))
      (Found (verbatim text.toList.length memberDepth)) items loose := by
  obtain ⟨rest, hread, -⟩ := readAll_eq_ok_iff.mp h
  have hlength := congrArg List.length hs
  simp only [List.length_append, List.length_cons] at hlength
  rw [hs, read_list hbefore, ← hs] at hread
  refine (ranks_of_readElements hgap hitems ?_ hread).1
  simp only [between, List.length_append, List.length_cons]
  omega

end Text

/-- A value is not longer than the text that it stands in. -/
theorem length_value_le {m : Member} {ms : List Member} (h : m ∈ ms) (first : Bool) :
    m.2.length ≤ (membersSource first ms).length := by
  induction ms generalizing first with
  | nil => cases h
  | cons m' ms ih =>
    have hlength := length_membersSource_cons first m' ms
    rcases List.mem_cons.mp h with rfl | h
    · omega
    · have hrest := ih h false
      omega

theorem length_le_membersSource (ms : List Member) (first : Bool) :
    ms.length ≤ (membersSource first ms).length := by
  induction ms generalizing first with
  | nil => exact Nat.zero_le _
  | cons m ms ih =>
    have hlength := length_membersSource_cons first m ms
    have hrest := ih false
    rw [List.length_cons]
    omega

/-- A value under a name is that of some member. -/
theorem mem_of_mem_valuesOf {key : String} {text : List Char} {ms : List Member}
    (h : text ∈ valuesOf key ms) : ∃ m ∈ ms, m.2 = text := by
  obtain ⟨m, hm, rfl⟩ := List.mem_map.mp h
  exact ⟨m, List.mem_of_mem_filter hm, rfl⟩

end LooseRequest

/-- What is made of the members depends on what each of them held only. -/
theorem ofLoose_congr {loose loose' : LooseRequest} (hid : loose.id.join = loose'.id.join)
    (hop : loose.op.join = loose'.op.join) (hkind : loose.kind.join = loose'.kind.join)
    (hpayload : loose.payload.join = loose'.payload.join) :
    Request.ofLoose loose = Request.ofLoose loose' := by
  simp only [Request.ofLoose, hid, hop, hkind, hpayload]

namespace Parts

variable {p : Parts}

/-- The members of an object are read as the parts are. -/
theorem gathers_of_stands {limit : Nat} {ms : List Member} (hdecodes : p.Decodes)
    (hlimit : (membersSource true ms).length ≤ limit) (hnames : ∀ m ∈ ms, (unquote? m.1).isSome)
    (hid : Stands p.id (valuesOf "id" ms)) (hop : Stands p.op (valuesOf "op" ms))
    (hkind : Stands p.kind (valuesOf "type" ms))
    (hpayload : Stands p.payload (valuesOf "payload" ms)) :
    Gathers (ReadsAs (member limit memberDepth)) (ReadsAs (verbatim limit memberDepth)) empty ms
      p.loose := by
  -- No value is longer than the whole text, which is the limit that it is read with.
  have hvalue : ∀ {key : String}, ∀ text ∈ valuesOf key ms, text.length ≤ limit := by
    intro key text htext
    obtain ⟨m, hm, rfl⟩ := mem_of_mem_valuesOf htext
    exact Nat.le_trans (length_value_le hm true) hlimit
  refine ⟨hnames, ?_, ?_, ?_, ?_⟩
  · exact filled_of_stands hid fun x hx text htext h =>
      Part.readsAs_member (hdecodes.id x hx) h (hvalue text htext)
  · exact filled_of_stands hop fun x hx text htext h =>
      Part.readsAs_member (hdecodes.op x hx) h (hvalue text htext)
  · exact filled_of_stands hkind fun x hx text htext h =>
      Part.readsAs_member (hdecodes.kind x hx) h (hvalue text htext)
  · exact filled_of_stands hpayload fun x hx text htext h =>
      Part.readsAs_kept h (hvalue text htext) memberDepth

/-- The elements of a short list are well-formed if they are parts in their places. -/
theorem wellFormed_of_ranked {items : List (List Char)} (hshort : items.length ≤ 4)
    (hid : Ranked p.id items[0]?) (hop : Ranked p.op items[1]?) (hkind : Ranked p.kind items[2]?)
    (hpayload : Ranked p.payload items[3]?) : ∀ item ∈ items, WellFormed item := by
  intro item hitem
  obtain ⟨n, hn, rfl⟩ := List.mem_iff_getElem.mp hitem
  have hget := List.getElem?_eq_getElem hn
  obtain rfl | rfl | rfl | rfl : n = 0 ∨ n = 1 ∨ n = 2 ∨ n = 3 := by omega
  · exact (hget ▸ hid : Ranked p.id (some _)).wellFormed
  · exact (hget ▸ hop : Ranked p.op (some _)).wellFormed
  · exact (hget ▸ hkind : Ranked p.kind (some _)).wellFormed
  · exact (hget ▸ hpayload : Ranked p.payload (some _)).wellFormed

/-- The elements of a list are read as the parts are, up to those that are null. -/
theorem exists_ranks_of_ranked {limit : Nat} {items : List (List Char)} (hdecodes : p.Decodes)
    (hlimit : (commaSeparated items).length ≤ limit) (hshort : items.length ≤ 4)
    (hid : Ranked p.id items[0]?) (hop : Ranked p.op items[1]?) (hkind : Ranked p.kind items[2]?)
    (hpayload : Ranked p.payload items[3]?) :
    ∃ loose, Ranks (ReadsAs (member limit memberDepth)) (ReadsAs (verbatim limit memberDepth)) items
      loose ∧ Request.ofLoose loose = Request.ofLoose p.loose := by
  have hitem : ∀ {n : Nat}, ∀ text ∈ items[n]?, text.length ≤ limit := fun text htext =>
    Nat.le_trans (length_le_commaSeparated (List.mem_of_getElem? htext)) hlimit
  -- an element that is null holds nothing, as an absent part does
  have hnull : Part.null.value? = some none := rfl
  have hsome : ∀ {part : Option Part}, (∀ x ∈ part, x.value?.isSome) →
      ∀ x, x ∈ part ∨ x = .null → x.value?.isSome := by
    rintro part hpart x (hx | rfl)
    · exact hpart x hx
    · rw [hnull]
      rfl
  have hjoin : (Part.null.value?).join = none := by rw [hnull]; rfl
  obtain ⟨id, hid, hid'⟩ := filled_of_ranked hid hjoin fun x hx text htext h =>
    Part.readsAs_member (hsome hdecodes.id x hx) h (hitem text htext)
  obtain ⟨op, hop, hop'⟩ := filled_of_ranked hop hjoin fun x hx text htext h =>
    Part.readsAs_member (hsome hdecodes.op x hx) h (hitem text htext)
  obtain ⟨kind, hkind, hkind'⟩ := filled_of_ranked hkind hjoin fun x hx text htext h =>
    Part.readsAs_member (hsome hdecodes.kind x hx) h (hitem text htext)
  have hkept : keptText Part.null.text = none := by decide
  obtain ⟨payload, hpayload, hpayload'⟩ := filled_of_ranked hpayload hkept fun x _ text htext h =>
    Part.readsAs_kept h (hitem text htext) memberDepth
  exact ⟨⟨id, op, kind, payload⟩, ⟨hshort, hid, hop, hkind, hpayload⟩,
    ofLoose_congr hid' hop' hkind' hpayload'⟩

/-- The first pass finds the parts of a text. -/
theorem LaidOut.exists_decode {text : String} (hdecodes : p.Decodes) (h : p.LaidOut text.toList) :
    ∃ loose, Json.decode read text = .ok loose ∧
      Request.ofLoose loose = Request.ofLoose p.loose := by
  generalize hs : text.toList = s at h
  cases h with
  | @object before gap after ms hbefore hgap hafter hnames hvalues hid hop hkind hpayload =>
    have hlength := congrArg List.length hs
    simp only [List.length_append, List.length_cons] at hlength
    have hlimit : (membersSource true ms).length ≤ text.toList.length := by omega
    -- Every spelled value is shorter than the text, so the fuel that the readers get suffices.
    have hgathers := gathers_of_stands hdecodes hlimit hnames hid hop hkind hpayload
    have hcount : ms.length ≤ (membersSource true ms).length := length_le_membersSource ms true
    refine ⟨p.loose, ?_, rfl⟩
    -- Only the blanks behind the envelope are left.
    refine readAll_eq_ok_iff.mpr ⟨after, ?_, readEnd_eq_ok_iff.mpr hafter⟩
    rw [hs, read_object hbefore, ← hs]
    exact readMembers_of_gathers hvalues hgap hlimit (by omega) hgathers
  | @list before gap after items hbefore hgap hafter hshort hid hop hkind hpayload =>
    have hlength := congrArg List.length hs
    simp only [List.length_append, List.length_cons] at hlength
    have hlimit : (commaSeparated items).length ≤ text.toList.length := by omega
    have hitems := wellFormed_of_ranked hshort hid hop hkind hpayload
    obtain ⟨loose, hranks, hsame⟩ :=
      exists_ranks_of_ranked hdecodes hlimit hshort hid hop hkind hpayload
    refine ⟨loose, ?_, hsame⟩
    refine readAll_eq_ok_iff.mpr ⟨after, ?_, readEnd_eq_ok_iff.mpr hafter⟩
    rw [hs, read_list hbefore, ← hs]
    exact readElements_of_ranks hgap hitems hranks

/-- The first pass does not get through a text with too many parts. -/
theorem Overfull.decode_ne_ok {text : String} (h : Overfull text.toList) (loose : LooseRequest) :
    Json.decode read text ≠ .ok loose := by
  intro hdecode
  generalize hs : text.toList = s at h
  cases h with
  | @repeated before gap after ms key hbefore hgap hnames hvalues hkey htwice =>
    have hgathers := gathers_of_decode hs hbefore hgap hnames hvalues hdecode
    simp only [fieldNames, List.mem_cons, List.not_mem_nil, or_false] at hkey
    -- Whatever was decoded has each field at most once.
    rcases hkey with rfl | rfl | rfl | rfl
    · have hone := hgathers.id.length_le_one
      omega
    · have hone := hgathers.op.length_le_one
      omega
    · have hone := hgathers.kind.length_le_one
      omega
    · have hone := hgathers.payload.length_le_one
      omega
  | @fifth before gap after items hbefore hgap hitems hlong =>
    have hshort := (ranks_of_decode hs hbefore hgap hitems hdecode).short
    omega

end Parts

/-- **The layout of an envelope does not matter.** Whatever parts a text has, of which id, operation
and type can be decoded: what is parsed from it is made of these parts alone, for every order of the
members, with whatever other members and blanks, in an object as in a list. A text that has a part
twice or a fifth element is refused. -/
theorem parse_layout (text : String) :
    (∀ p : Parts, p.Decodes → p.LaidOut text.toList →
      Request.parse text = Request.ofLoose p.loose) ∧
    (Parts.Overfull text.toList →
      ∃ message, Request.parse text = .error ⟨0, none, .badRequest message⟩) := by
  constructor
  · intro p hdecodes h
    obtain ⟨loose, hdecode, hsame⟩ := h.exists_decode hdecodes
    simp only [Request.parse, hdecode]
    exact hsame
  · intro h
    cases hdecode : Json.decode read text with
    | error fault =>
      simp only [Request.parse, hdecode]
      exact ⟨_, rfl⟩
    | ok loose => exact absurd hdecode (h.decode_ne_ok loose)

/-- An id and an operation, in an object with blanks and another member and in a list; and a list
with five elements. -/
theorem parse_layout_two_ways :
    Request.parse "\x7b \"op\":\"a\",\"x\":null,\"id\": 5\x7d" = Request.parse "[5,\"a\"]" ∧
    ∃ message, Request.parse "[5,5,5,5,5]" = .error ⟨0, none, .badRequest message⟩ := by
  have hnumber : WellFormed "5".toList := .number (numberText_printNumber (.int 5 (by decide)))
  have hstring : WellFormed "\"a\"".toList := .string (stringText_printString "a")
  have hblank : Blanks " ".toList := List.forall_mem_singleton.mpr rfl
  let id : Part := ⟨"5".toList, hnumber, tight_of_all rfl⟩
  let op : Part := ⟨"\"a\"".toList, hstring, tight_of_all rfl⟩
  let p : Parts := ⟨some id, some op, none, none⟩
  have hdecodes : p.Decodes := by
    refine ⟨?_, ?_, ?_⟩
    · rintro x ⟨⟩
      rfl
    · rintro x ⟨⟩
      rfl
    · rintro x ⟨⟩
  have hobject : p.LaidOut "\x7b \"op\":\"a\",\"x\":null,\"id\": 5\x7d".toList := by
    let ms : List Member := [(" \"op\"".toList, "\"a\"".toList), ("\"x\"".toList, "null".toList),
      ("\"id\"".toList, " 5".toList)]
    have hpadded : id.Padded " 5".toList := ⟨" ".toList, [], hblank, blanks_nil, rfl⟩
    have hvalues : ∀ m ∈ ms, WellFormed m.2 := by
      simp only [ms, List.forall_mem_cons, List.not_mem_nil, false_imp_iff, implies_true, and_true]
      exact ⟨hstring, .null, hpadded.wellFormed⟩
    have h : p.LaidOut ([] ++ '\x7b' :: ([] ++ (membersSource true ms ++ '\x7d' :: []))) :=
      .object blanks_nil blanks_nil blanks_nil (by decide) hvalues ⟨" 5".toList, by decide, hpadded⟩
        ⟨"\"a\"".toList, by decide, op.padded_self⟩ (by decide : valuesOf "type" ms = [])
        (by decide : valuesOf "payload" ms = [])
    exact h
  have hlist : p.LaidOut "[5,\"a\"]".toList := by
    have h : p.LaidOut ([] ++ '[' :: ([] ++
        (commaSeparated ["5".toList, "\"a\"".toList] ++ ']' :: []))) :=
      .list blanks_nil blanks_nil blanks_nil (by decide) id.padded_self op.padded_self rfl rfl
    exact h
  have hfifth : Parts.Overfull "[5,5,5,5,5]".toList := by
    have h : Parts.Overfull ([] ++ '[' :: ([] ++
        (commaSeparated (List.replicate 5 "5".toList) ++ ']' :: []))) :=
      .fifth blanks_nil blanks_nil (fun item h => (List.mem_replicate.mp h).2 ▸ hnumber) (by decide)
    exact h
  refine ⟨?_, (parse_layout _).2 hfifth⟩
  rw [(parse_layout _).1 p hdecodes hobject, (parse_layout _).1 p hdecodes hlist]

end WsGateway
