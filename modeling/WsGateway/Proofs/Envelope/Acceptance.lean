import WsGateway.Proofs.Envelope.Layout

/-!
# Which envelopes are requests

An envelope that gets through the first pass is judged by its parts (`parse_judges`): it is a
request if and only if its id is absent, null or a whole number of 64 bits with a sign (`NamesId`),
its operation is a string that is not empty (`NamesOp`), and its type is absent, null or one of the
codes (`NamesKind`). Whatever else is wrong with it, the refusal names the id and the operation that
can be read.

A part says what its text spells: the reader takes an object with the embedding name for the text
in it, so that a request may name its id in this way too (`parse_embedded_id`).
-/

namespace WsGateway

open Json LooseRequest

/-! ## Every well-formed text has a part -/

/-- What is well-formed is some part with blanks around it. -/
theorem exists_padded {text : List Char} (h : WellFormed text) : ∃ x : Part, x.Padded text := by
  obtain ⟨before, core, after, hbefore, hafter, hcore, htight, rfl⟩ := h.exists_tight
  exact ⟨⟨core, hcore, htight⟩, before, after, hbefore, hafter, rfl⟩

namespace Parts

/-- The texts under a name are those of some part, or of none. -/
theorem exists_stands {α : Type} {holds : List Char → α → Prop} {texts : List (List Char)}
    {a : Option α} (h : Filled holds none texts a) (htexts : ∀ text ∈ texts, WellFormed text) :
    ∃ part, Stands part texts := by
  cases h with
  | kept => exact ⟨none, rfl⟩
  | @found text b =>
    obtain ⟨x, hx⟩ := exists_padded (htexts text List.mem_cons_self)
    exact ⟨some x, text, rfl, hx⟩

/-- An item of a list is some part in its place. -/
theorem exists_ranked (item : Option (List Char)) (hitem : ∀ text ∈ item, WellFormed text) :
    ∃ part, Ranked part item := by
  cases item with
  | none => exact ⟨none, rfl⟩
  | some text =>
    obtain ⟨x, hx⟩ := exists_padded (hitem text rfl)
    exact ⟨some x, hx⟩

/-- A text that gets through the first pass has parts. -/
theorem exists_laidOut {text : String} {loose : LooseRequest}
    (h : Json.decode read text = .ok loose) : ∃ p : Parts, p.LaidOut text.toList := by
  obtain ⟨rest, hread, hend⟩ := readAll_eq_ok_iff.mp h
  obtain ⟨before, hbefore, hs⟩ := exists_blanks text.toList
  have hafter := readEnd_eq_ok_iff.mp hend
  have hlength := congrArg List.length hs
  rw [List.length_append] at hlength
  unfold LooseRequest.read at hread
  split at hread
  · next s hopen =>
    rw [hopen, List.length_cons] at hlength
    obtain ⟨gap, ms, hgap, hnames, hvalues, rfl⟩ := exists_members_of_readMembers (by omega) hread
    -- what was read tells that no field has two values
    obtain ⟨hgathers, -⟩ := gathers_of_readMembers hnames hvalues hgap (by omega) hread
    have htexts : ∀ {key : String}, ∀ text ∈ valuesOf key ms, WellFormed text := by
      intro key text htext
      obtain ⟨m, hm, rfl⟩ := mem_of_mem_valuesOf htext
      exact hvalues m hm
    obtain ⟨id, hid⟩ := exists_stands hgathers.id htexts
    obtain ⟨op, hop⟩ := exists_stands hgathers.op htexts
    obtain ⟨kind, hkind⟩ := exists_stands hgathers.kind htexts
    obtain ⟨payload, hpayload⟩ := exists_stands hgathers.payload htexts
    rw [hs, hopen]
    exact ⟨⟨id, op, kind, payload⟩,
      .object hbefore hgap hafter hgathers.named hvalues hid hop hkind hpayload⟩
  · next s hopen =>
    rw [hopen, List.length_cons] at hlength
    obtain ⟨gap, items, hgap, hitems, rfl⟩ := exists_items_of_readElements (by omega) hread
    obtain ⟨hranks, -⟩ := ranks_of_readElements hgap hitems (by omega) hread
    have hitem : ∀ {n : Nat}, ∀ text ∈ items[n]?, WellFormed text := fun text htext =>
      hitems text (List.mem_of_getElem? htext)
    obtain ⟨id, hid⟩ := exists_ranked items[0]? hitem
    obtain ⟨op, hop⟩ := exists_ranked items[1]? hitem
    obtain ⟨kind, hkind⟩ := exists_ranked items[2]? hitem
    obtain ⟨payload, hpayload⟩ := exists_ranked items[3]? hitem
    rw [hs, hopen]
    exact ⟨⟨id, op, kind, payload⟩,
      .list hbefore hgap hafter hranks.short hid hop hkind hpayload⟩
  · exact absurd hread (refuse_ne_ok _ _ _ _)

end Parts

/-! ## What a part says -/

/-- The value that was read of a part; an absent one counts as null. -/
def Part.Held (limit : Nat) : Option Part → Value → Prop
  | none, v => v = .null
  | some x, v => x.text.length ≤ limit ∧ Found (readValue limit memberDepth) x.text v

namespace Part

variable {limit : Nat} {x : Part} {v w : Value} {core text : List Char}

theorem readValue_skipBlanks (limit depth : Nat) (s : List Char) :
    readValue limit depth (skipBlanks s) = readValue limit depth s :=
  readValueWith_skipBlanks s

/-- A part is read from its own text, whatever blanks are around it. -/
theorem held_of_found {a : Option Value} (h : x.Padded text)
    (hfound : Found (member limit memberDepth) text a) (hlimit : text.length ≤ limit) :
    Held limit (some x) (a.getD .null) := by
  have hlength := h.length_le
  refine ⟨by omega, ?_⟩
  obtain ⟨before, after, hbefore, hafter, rfl⟩ := h
  obtain ⟨t, gap, ht, -, hread⟩ := hfound
  have hvalue := readValue_of_member hread
  rw [← readValue_skipBlanks, List.append_assoc, skipBlanks_blanks hbefore, readValue_skipBlanks,
    List.append_assoc] at hvalue
  have ht' := endsNumber_blanks hafter ht
  obtain ⟨gap', hgap', heq⟩ := x.wellFormed.rest_of_read ht' hvalue
  rw [heq] at hvalue
  exact ⟨after ++ t, gap', ht', hgap', hvalue⟩

/-- A part that spells a plain value was read as that. -/
theorem Held.eq (h : Held limit (some x) v) (hspells : Spells core x.text) (hplain : Plain w core) :
    v = w :=
  h.2.eq (readsAs_of_spells hspells hplain h.1 h.1 (by decide))

/-- A part that was read as a plain value spells it. -/
theorem Held.spells (h : Held limit (some x) v) (hplain : ∃ core, Plain v core) :
    ∃ core, Plain v core ∧ Spells core x.text := by
  obtain ⟨-, t, gap, -, hgap, hread⟩ := h
  obtain ⟨inner, core, heq, hcore, hspells⟩ := spells_of_read hread hplain
  -- no blanks are left behind the part, since it does not end with any
  rw [← List.append_assoc, List.append_left_inj] at heq
  have hnil : gap = [] := by
    have htight := x.tight
    rw [heq] at htight
    exact htight.eq_nil_of_blanks hgap
  rw [hnil, List.append_nil] at heq
  rw [heq]
  exact ⟨core, hcore, hspells⟩

end Part

namespace Parts

/-- The id that an envelope names: an absent one, and null, stand for zero. -/
inductive NamesId : Option Part → Int64 → Prop where
  | absent : NamesId none 0
  | null {x : Part} (h : Spells "null".toList x.text) : NamesId (some x) 0
  | literal {x : Part} (n : Int64) (h : Spells (toString n.toInt).toList x.text) :
      NamesId (some x) n

/-- The operation that an envelope names. -/
inductive NamesOp : Option Part → String → Prop where
  | text {x : Part} {core : List Char} {s : String} (h : Spells core x.text)
      (hcore : unquote? core = some s) (hne : s ≠ "") : NamesOp (some x) s

/-- The kind of request that an envelope names. -/
inductive NamesKind : Option Part → RequestKind → Prop where
  | absent : NamesKind none .request
  | null {x : Part} (h : Spells "null".toList x.text) : NamesKind (some x) .request
  | code {x : Part} {core : List Char} (k : RequestKind) (h : Spells core x.text)
      (hcore : unquote? core = some k.code) : NamesKind (some x) k

section Named

variable {limit : Nat} {part : Option Part} {v : Value}

/-- Null is held where no part stands, or one that spells it. -/
theorem held_null (h : Part.Held limit part v) (hv : v = .null) :
    part = none ∨ ∃ x, part = some x ∧ Spells "null".toList x.text := by
  cases part with
  | none => exact .inl rfl
  | some x =>
    subst hv
    obtain ⟨core, hcore, hspells⟩ := h.spells ⟨_, .null⟩
    cases hcore
    exact .inr ⟨x, rfl, hspells⟩

/-- **Which parts name an id**: those that a number of 64 bits is read of, and absent ones. -/
theorem namesId_iff (h : Part.Held limit part v) (n : Int64) :
    NamesId part n ↔ Request.readId (some v) = .ok n := by
  constructor
  · intro hnames
    cases hnames with
    | absent =>
      obtain rfl : v = .null := h
      rfl
    | null hspells =>
      rw [h.eq hspells .null]
      rfl
    | literal n hspells =>
      have hlow := n.le_toInt
      have hhigh := n.toInt_lt
      rw [h.eq hspells (.int n.toInt (by omega)), Request.readId, if_pos (by omega),
        Int64.ofInt_toInt]
  · intro hread
    -- The reader looks at the value that was held: absent, null, an integer in range, or anything
    -- else, which it refuses.
    unfold Request.readId at hread
    split at hread
    · next heq => cases heq
    · next heq =>
      cases heq
      cases hread
      -- A part that is absent and one that spells null both hold null.
      rcases held_null h rfl with rfl | ⟨x, rfl, hspells⟩
      · exact .absent
      · exact .null hspells
    · next k fits heq =>
      cases heq
      split at hread
      · next hrange =>
        cases hread
        cases part with
        | none => cases h
        | some x =>
          obtain ⟨core, hcore, hspells⟩ := h.spells ⟨_, .int k fits⟩
          cases hcore
          refine .literal _ ?_
          rw [Int64.toInt_ofInt_of_le (by omega) (by omega)]
          exact hspells
      · cases hread
    · cases hread

/-- **Which parts name an operation**: those that a text is read of that is not empty. -/
theorem namesOp_iff (h : Part.Held limit part v) (s : String) :
    NamesOp part s ↔ Request.readOp (some v) = some s := by
  constructor
  · intro hnames
    cases hnames with
    | text hspells hcore hne =>
      rw [h.eq hspells (.string hcore), Request.readOp, if_neg]
      rwa [String.isEmpty_iff]
  · intro hread
    unfold Request.readOp at hread
    split at hread
    · next text heq =>
      cases heq
      split at hread
      · cases hread
      · next hne =>
        cases hread
        cases part with
        | none => cases h
        | some x =>
          obtain ⟨core, hcore, hspells⟩ := h.spells (plain_string _)
          cases hcore with
          | string hcore => exact .text hspells hcore (by rwa [String.isEmpty_iff] at hne)
    · cases hread

/-- A code that stands for a kind is the code of that kind. -/
theorem code_of_ofCode? {code : String} {k : RequestKind} (h : RequestKind.ofCode? code = some k) :
    code = k.code := by
  unfold RequestKind.ofCode? at h
  split at h
  · next hcode =>
    cases h
    exact hcode
  split at h
  · next hcode =>
    cases h
    exact hcode
  split at h
  · next hcode =>
    cases h
    exact hcode
  split at h
  · next hcode =>
    cases h
    exact hcode
  · cases h

/-- **Which parts name a kind**: those that one of the codes is read of, and absent ones. -/
theorem namesKind_iff (h : Part.Held limit part v) (k : RequestKind) :
    NamesKind part k ↔ Request.readKind (some v) = .ok k := by
  constructor
  · intro hnames
    cases hnames with
    | absent =>
      obtain rfl : v = .null := h
      rfl
    | null hspells =>
      rw [h.eq hspells .null]
      rfl
    | code k hspells hcore =>
      rw [h.eq hspells (.string hcore), Request.readKind]
      simp only [RequestKind.ofCode?_code]
  · intro hread
    -- As for the id, but the string has to be one of the codes.
    unfold Request.readKind at hread
    split at hread
    · next heq => cases heq
    · next heq =>
      cases heq
      cases hread
      rcases held_null h rfl with rfl | ⟨x, rfl, hspells⟩
      · exact .absent
      · exact .null hspells
    · next text heq =>
      cases heq
      split at hread
      · next k' hcode =>
        cases hread
        cases part with
        | none => cases h
        | some x =>
          obtain ⟨core, hcore, hspells⟩ := h.spells (plain_string _)
          cases hcore with
          | string hcore => exact .code k hspells (by rw [hcore, code_of_ofCode? hcode])
      · cases hread
    · cases hread

end Named

/-! ## What the first pass read -/

section Read

variable {limit : Nat} {part : Option Part}

/-- What the members of a name were read as is held of the part that stands there. -/
theorem held_of_stands {texts : List (List Char)} {a : Option (Option Value)}
    (h : Stands part texts) (hfilled : Filled (Found (member limit memberDepth)) none texts a)
    (hlimit : ∀ text ∈ texts, text.length ≤ limit) :
    Part.Held limit part (a.join.getD .null) := by
  cases part with
  | none =>
    obtain rfl : texts = [] := h
    cases hfilled
    rfl
  | some x =>
    obtain ⟨text, rfl, hpadded⟩ := h
    cases hfilled with
    | found hfound => exact Part.held_of_found hpadded hfound (hlimit text List.mem_cons_self)

/-- What an element of a list was read as is held of the part in its place. -/
theorem held_of_ranked {item : Option (List Char)} {a : Option (Option Value)}
    (h : Ranked part item) (hfilled : Filled (Found (member limit memberDepth)) none item.toList a)
    (hlimit : ∀ text ∈ item, text.length ≤ limit) :
    Part.Held limit part (a.join.getD .null) := by
  cases item with
  | none =>
    obtain rfl : part = none := h
    cases hfilled
    rfl
  | some text =>
    cases hfilled with
    | found hfound =>
      have hheld := Part.held_of_found h hfound (hlimit text rfl)
      cases part with
      | none => exact hheld.eq .self .null
      | some x => exact hheld

/-- What was kept of a payload is the text of the part, unless that is null. -/
theorem kept_of_stands {texts : List (List Char)} {a : Option (Option String)}
    (h : Stands part texts) (hfilled : Filled (Found (verbatim limit memberDepth)) none texts a)
    (hlimit : ∀ text ∈ texts, text.length ≤ limit) :
    a.join = part.bind fun x => keptText x.text := by
  cases part with
  | none =>
    obtain rfl : texts = [] := h
    cases hfilled
    rfl
  | some x =>
    obtain ⟨text, rfl, hpadded⟩ := h
    cases hfilled with
    | found hfound =>
      exact hfound.eq (Part.readsAs_kept hpadded (hlimit text List.mem_cons_self) memberDepth)

/-- What was kept of a payload in a list is the text of the part, unless that is null. -/
theorem kept_of_ranked {item : Option (List Char)} {a : Option (Option String)}
    (h : Ranked part item)
    (hfilled : Filled (Found (verbatim limit memberDepth)) none item.toList a)
    (hlimit : ∀ text ∈ item, text.length ≤ limit) :
    a.join = part.bind fun x => keptText x.text := by
  cases item with
  | none =>
    obtain rfl : part = none := h
    cases hfilled
    rfl
  | some text =>
    cases hfilled with
    | found hfound =>
      have hkept := hfound.eq (Part.readsAs_kept h (hlimit text rfl) memberDepth)
      cases part with
      | none => exact hkept
      | some x => exact hkept

end Read

/-- What was read of an envelope is what its parts hold. -/
structure Gave (p : Parts) (limit : Nat) (loose : LooseRequest) : Prop where
  id : Part.Held limit p.id (loose.id.join.getD .null)
  op : Part.Held limit p.op (loose.op.join.getD .null)
  kind : Part.Held limit p.kind (loose.kind.join.getD .null)
  payload : loose.payload.join = p.payload.bind fun x => keptText x.text

/-- **The first pass gives what was laid out**, member by member. -/
theorem LaidOut.gave {p : Parts} {text : String} {loose : LooseRequest} (h : p.LaidOut text.toList)
    (hdecode : Json.decode LooseRequest.read text = .ok loose) :
    p.Gave text.toList.length loose := by
  -- The limit of the string readers is the length of the whole text, so it is kept as `hlength`
  -- before the layouts are taken apart.
  generalize hs : text.toList = s at h
  have hlength := congrArg List.length hs
  cases h with
  | @object before gap after ms hbefore hgap hafter hnames hvalues hid hop hkind hpayload =>
    simp only [List.length_append, List.length_cons] at hlength
    have hnameTexts : ∀ m ∈ ms, NameText m.1 := by
      intro m hm
      obtain ⟨_, hname⟩ := Option.isSome_iff_exists.mp (hnames m hm)
      exact nameText_of_unquote? hname
    -- What was decoded is what the members gather, one field at a time.
    have hgathers := gathers_of_decode hs hbefore hgap hnameTexts hvalues hdecode
    have htexts : ∀ {key : String}, ∀ t ∈ valuesOf key ms, t.length ≤ text.toList.length := by
      intro key t ht
      obtain ⟨m, hm, rfl⟩ := mem_of_mem_valuesOf ht
      have hle := length_value_le hm true
      omega
    rw [← hs]
    exact ⟨held_of_stands hid hgathers.id htexts, held_of_stands hop hgathers.op htexts,
      held_of_stands hkind hgathers.kind htexts, kept_of_stands hpayload hgathers.payload htexts⟩
  | @list before gap after items hbefore hgap hafter hshort hid hop hkind hpayload =>
    simp only [List.length_append, List.length_cons] at hlength
    have hitems := wellFormed_of_ranked hshort hid hop hkind hpayload
    -- In the positional form the fields go by their rank.
    have hranks := ranks_of_decode hs hbefore hgap hitems hdecode
    have htexts : ∀ {n : Nat}, ∀ t ∈ items[n]?, t.length ≤ text.toList.length := by
      intro n t ht
      have hle : t.length ≤ (commaSeparated items).length :=
        length_le_commaSeparated (List.mem_of_getElem? ht)
      omega
    rw [← hs]
    exact ⟨held_of_ranked hid hranks.id htexts, held_of_ranked hop hranks.op htexts,
      held_of_ranked hkind hranks.kind htexts, kept_of_ranked hpayload hranks.payload htexts⟩

/-! ## The judgement -/

/-- The envelope is this request. -/
structure Accepted (p : Parts) (r : Request) : Prop where
  id : NamesId p.id r.id
  op : NamesOp p.op r.op
  kind : NamesKind p.kind r.kind
  payload : r.payload = p.payload.bind fun x => keptText x.text

/-- The refusal blames the client, and names the id and the operation if the envelope does. -/
structure Refused (p : Parts) (f : RequestFailure) : Prop where
  error : f.error.isClientFault ∧ ∃ message, f.error = .badRequest message
  id : ∀ n, NamesId p.id n → f.rerid = n
  noId : (∀ n, ¬ NamesId p.id n) → f.rerid = 0
  op : ∀ s, f.op = some s ↔ NamesOp p.op s

end Parts

namespace Request

theorem readId_getD (a : Option Value) : readId (some (a.getD .null)) = readId a := by
  cases a <;> rfl

theorem readOp_getD (a : Option Value) : readOp (some (a.getD .null)) = readOp a := by
  cases a <;> rfl

theorem readKind_getD (a : Option Value) : readKind (some (a.getD .null)) = readKind a := by
  cases a <;> rfl

/-- An id that cannot be read is a bad request. -/
theorem badRequest_of_readId {a : Option Value} {e : Error} (h : readId a = .error e) :
    ∃ message, e = .badRequest message := by
  unfold readId at h
  split at h
  · cases h
  · cases h
  · split at h
    · cases h
    · cases h
      exact ⟨_, rfl⟩
  · cases h
    exact ⟨_, rfl⟩

/-- A kind that cannot be read is a bad request. -/
theorem badRequest_of_readKind {a : Option Value} {e : Error} (h : readKind a = .error e) :
    ∃ message, e = .badRequest message := by
  unfold readKind at h
  split at h
  · cases h
  · cases h
  · split at h
    · cases h
    · cases h
      exact ⟨_, rfl⟩
  · cases h
    exact ⟨_, rfl⟩

variable {loose : LooseRequest}

/-- A request is made of members that name an id, an operation and a kind. -/
theorem ofLoose_eq_ok_iff {r : Request} : ofLoose loose = .ok r ↔
    readId loose.id.join = .ok r.id ∧ readOp loose.op.join = some r.op ∧
      readKind loose.kind.join = .ok r.kind ∧ r.payload = loose.payload.join := by
  constructor
  · intro h
    unfold ofLoose at h
    dsimp only at h
    split at h
    · cases h
    next id hid =>
    split at h
    · cases h
    next op hop =>
    split at h
    · cases h
    next kind hkind =>
    cases h
    exact ⟨hid, hop, hkind, rfl⟩
  · rintro ⟨hid, hop, hkind, hpayload⟩
    simp only [ofLoose, hid, hop, hkind, ← hpayload]

/-- The failure of a request tells the id and the operation as far as they were readable. -/
theorem ofLoose_eq_error {f : RequestFailure} (h : ofLoose loose = .error f) :
    (∃ message, f.error = .badRequest message) ∧ f.op = readOp loose.op.join ∧
      (∀ n, readId loose.id.join = .ok n → f.rerid = n) ∧
      ((∀ n, readId loose.id.join ≠ .ok n) → f.rerid = 0) := by
  unfold ofLoose at h
  dsimp only at h
  -- The checks are made in the order id, op, kind; every failure behind the id has the id.
  split at h
  · next e hid =>
    cases h
    refine ⟨badRequest_of_readId hid, rfl, fun n hn => ?_, fun _ => rfl⟩
    rw [hid] at hn
    cases hn
  next id hid =>
  have hrerid : ∀ n, readId loose.id.join = .ok n → id = n := by
    intro n hn
    rw [hid] at hn
    cases hn
    rfl
  split at h
  · next hop =>
    cases h
    exact ⟨⟨_, rfl⟩, hop.symm, hrerid, fun hnone => absurd hid (hnone id)⟩
  next op hop =>
  split at h
  · next e hkind =>
    cases h
    exact ⟨badRequest_of_readKind hkind, hop.symm, hrerid, fun hnone => absurd hid (hnone id)⟩
  · cases h

end Request

namespace Parts

variable {p : Parts} {limit : Nat} {loose : LooseRequest}

/-- The members make up a request just if the parts do. -/
theorem Gave.accepted_iff (h : p.Gave limit loose) (r : Request) :
    Request.ofLoose loose = .ok r ↔ p.Accepted r := by
  rw [Request.ofLoose_eq_ok_iff, ← Request.readId_getD, ← Request.readOp_getD,
    ← Request.readKind_getD, ← namesId_iff h.id, ← namesOp_iff h.op, ← namesKind_iff h.kind,
    h.payload]
  constructor
  · rintro ⟨hid, hop, hkind, hpayload⟩
    exact ⟨hid, hop, hkind, hpayload⟩
  · rintro ⟨hid, hop, hkind, hpayload⟩
    exact ⟨hid, hop, hkind, hpayload⟩

/-- A failure tells what could be read of the parts. -/
theorem Gave.refused (h : p.Gave limit loose) {f : RequestFailure}
    (hf : Request.ofLoose loose = .error f) : p.Refused f := by
  obtain ⟨⟨message, hmessage⟩, hop, hid, hnoId⟩ := Request.ofLoose_eq_error hf
  simp only [← Request.readId_getD loose.id.join, ← namesId_iff h.id] at hid
  simp only [ne_eq, ← Request.readId_getD loose.id.join, ← namesId_iff h.id] at hnoId
  refine ⟨⟨?_, message, hmessage⟩, hid, hnoId, fun s => ?_⟩
  · rw [hmessage]
    rfl
  · rw [hop, ← Request.readOp_getD, ← namesOp_iff h.op]

end Parts

/-- **Exactly the valid envelopes are requests.** A text that gets through the first pass has parts,
and whatever parts it has decide: it is the request that they name, if they name an id, an operation
and a kind, and otherwise it is refused, with the id and the operation as far as they name them. A
text that does not get through the first pass is refused without either. -/
theorem parse_judges (text : String) :
    match Json.decode LooseRequest.read text with
    | .ok _ => (∃ p : Parts, p.LaidOut text.toList) ∧ ∀ p : Parts, p.LaidOut text.toList →
        (∀ r, Request.parse text = .ok r ↔ p.Accepted r) ∧
          ∀ f, Request.parse text = .error f → p.Refused f
    | .error _ => ∃ message, Request.parse text = .error ⟨0, none, .badRequest message⟩ := by
  cases hdecode : Json.decode LooseRequest.read text with
  | error fault =>
    simp only [Request.parse, hdecode]
    exact ⟨_, rfl⟩
  | ok loose =>
    simp only [Request.parse, hdecode]
    refine ⟨Parts.exists_laidOut hdecode, fun p hp => ?_⟩
    have hgave := hp.gave hdecode
    exact ⟨hgave.accepted_iff, fun f hf => hgave.refused hf⟩

/-- A request, a refusal that names its id, and a text that is no envelope. -/
theorem parse_judges_three :
    (∃ p : Parts, ∃ r, p.LaidOut "\x7b\"id\":7,\"op\":\"a\"\x7d".toList ∧ p.Accepted r ∧ r.id = 7) ∧
    (∃ p : Parts, ∃ f, p.LaidOut "[7]".toList ∧ p.Refused f ∧ f.rerid = 7) ∧
    ∃ message, Request.parse "" = .error ⟨0, none, .badRequest message⟩ := by
  refine ⟨?_, ?_, parse_judges ""⟩
  · obtain ⟨⟨p, hp⟩, hjudges⟩ := parse_judges "\x7b\"id\":7,\"op\":\"a\"\x7d"
    exact ⟨p, ⟨7, "a", .request, none⟩, hp, ((hjudges p hp).1 _).mp (by decide +kernel), rfl⟩
  · obtain ⟨⟨p, hp⟩, hjudges⟩ := parse_judges "[7]"
    exact ⟨p, ⟨7, none, .badRequest "missing op"⟩, hp, (hjudges p hp).2 _ (by decide +kernel), rfl⟩

/-! ## Embedded parts -/

/-- An id in an object with the embedding name. -/
def embeddedId : String := "\x7b\"$serde_json::private::RawValue\":\"5\"\x7d"

/-- **An id need not be a literal**: an object with the embedding name is read as the text in it. -/
theorem parse_embedded_id :
    Request.parse ("\x7b\"id\":" ++ embeddedId ++ ",\"op\":\"x\"\x7d") =
      .ok ⟨5, "x", .request, none⟩ ∧
    embeddedId ≠ "null" ∧ ∀ n : Int, embeddedId ≠ toString n := by
  refine ⟨by decide +kernel, by decide, fun n h => ?_⟩
  have htext := congrArg String.toList h
  have hbrace : '\x7b' ∈ (toString n).toList := by
    rw [← htext]
    decide
  rw [toList_toString_int] at hbrace
  rcases List.mem_append.mp hbrace with hsign | hdigit
  · split at hsign
    · exact absurd hsign (by decide)
    · cases hsign
  · have hisDigit := Nat.isDigit_of_mem_toDigits (by decide) (by decide) hdigit
    exact absurd hisDigit (by decide)

end WsGateway
