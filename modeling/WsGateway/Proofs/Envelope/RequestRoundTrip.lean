import Mathlib.Control.Monad.Basic
import WsGateway.Envelope.Request
import WsGateway.Proofs.Json.Readable

/-!
# Requests on the wire and back

The text of a request is read as a request with the same id, operation and kind, whatever its
operation and its payload are (`parse_encode`). Its payload is kept as the text that was printed for
the value of the old one, so that both decode to the same value exactly if the printed text does.
-/

namespace WsGateway

open Json

namespace LooseRequest

/-! ## The members of an envelope -/

variable {limit depth n : Nat} {seen : LooseRequest} {text t : List Char}

/-- The reader takes each member that it has not seen; the id comes first. -/
theorem readMembers_id (hseen : seen.id = none) (hlimit : 4 ≤ limit) {v : Option Value}
    (hread : member limit depth (text ++ t) = .ok (v, t)) :
    readMembers limit depth (n + 1) true seen (memberText "id" text ++ t) =
      readMembers limit depth n false { seen with id := some v } t := by
  rw [memberText_eq, readMembers, nextMember_true]
  simp only [bind, Except.bind, readString_escaped "id" hlimit, readColon_cons, hread]
  simp [hseen]

theorem readMembers_op (hseen : seen.op = none) (hlimit : 4 ≤ limit) {v : Option Value}
    (hread : member limit depth (text ++ t) = .ok (v, t)) :
    readMembers limit depth (n + 1) false seen (',' :: (memberText "op" text ++ t)) =
      readMembers limit depth n false { seen with op := some v } t := by
  rw [memberText_eq, readMembers, nextMember_false]
  simp only [bind, Except.bind, readString_escaped "op" hlimit, readColon_cons, hread]
  simp [hseen]

theorem readMembers_type (hseen : seen.kind = none) (hlimit : 6 ≤ limit) {v : Option Value}
    (hread : member limit depth (text ++ t) = .ok (v, t)) :
    readMembers limit depth (n + 1) false seen (',' :: (memberText "type" text ++ t)) =
      readMembers limit depth n false { seen with kind := some v } t := by
  rw [memberText_eq, readMembers, nextMember_false]
  simp only [bind, Except.bind, readString_escaped "type" hlimit, readColon_cons, hread]
  simp [hseen]

theorem readMembers_payload (hseen : seen.payload = none) (hlimit : 9 ≤ limit) {v : Option String}
    (hread : verbatim limit depth (text ++ t) = .ok (v, t)) :
    readMembers limit depth (n + 1) false seen (',' :: (memberText "payload" text ++ t)) =
      readMembers limit depth n false { seen with payload := some v } t := by
  rw [memberText_eq, readMembers, nextMember_false]
  simp only [bind, Except.bind, readString_escaped "payload" hlimit, readColon_cons, hread]
  simp [hseen]

/-- The closing brace ends the members. -/
theorem readMembers_close :
    readMembers limit depth (n + 1) false seen ('\x7d' :: t) = .ok (seen, t) := rfl

/-! ## What stands in a member -/

/-- A member that does not hold null is read for what it holds. -/
theorem option_print {α : Type} {decoder : Decoder α} {v : Value} (hv : v ≠ .null) {a : α}
    (h : decoder limit depth (v.print.toList ++ t) = .ok (a, t)) :
    Decoder.option decoder limit depth (v.print.toList ++ t) = .ok (some a, t) := by
  obtain ⟨c, cs, htext, hblank, -⟩ := beginsValue_print v
  -- only the text of null begins with its letter
  have hc : c ≠ 'n' := by
    rintro rfl
    cases v with
    | null => exact hv rfl
    | bool b => cases b <;> cases htext
    | number n =>
      obtain ⟨c, cs', htext', hc⟩ := exists_cons_printNumber n
      obtain ⟨rfl, -⟩ := List.cons.inj (htext'.symm.trans htext)
      revert hc
      decide
    | string s =>
      exact absurd (List.cons.inj ((toList_printString s).symm.trans htext)).1 (by decide)
    | array items =>
      exact absurd (List.cons.inj ((toList_print_array items).symm.trans htext)).1 (by decide)
    | object members =>
      exact absurd (List.cons.inj ((toList_print_object members).symm.trans htext)).1 (by decide)
  rw [htext] at h ⊢
  rw [List.cons_append] at h ⊢
  simp only [Decoder.option, skipBlanks_cons hblank]
  split
  · next heq => exact absurd (List.cons.inj heq).1 hc
  · simp only [h, bind, Except.bind, pure, Except.pure]

/-- The word for null is read as nothing. -/
theorem option_null {α : Type} (decoder : Decoder α) :
    Decoder.option decoder limit depth (Value.null.print.toList ++ t) = .ok (none, t) := rfl

/-- A scalar in a member is read back. -/
theorem member_print {v : Value} (hv : v ≠ .null) (hheight : v.height = 0)
    (hwhole : v.WholeNumbers) (hlimit : v.print.toList.length ≤ limit) (ht : EndsNumber t) :
    member limit depth (v.print.toList ++ t) = .ok (some v, t) :=
  option_print hv (readValueWith_scalar hheight hwhole _ hlimit ht)

/-- A number of 64 bits that was printed is read again as a member. -/
theorem member_ofInt64 (n : Int64) (hlimit : (Value.ofInt64 n).print.toList.length ≤ limit)
    (ht : EndsNumber t) :
    member limit depth ((Value.ofInt64 n).print.toList ++ t) = .ok (some (.ofInt64 n), t) :=
  member_print (by simp [Value.ofInt64]) rfl (Value.wholeNumbers_int _ _) hlimit ht

/-- A text that was printed is read again as a member. -/
theorem member_string (s : String) (hlimit : (Value.string s).print.toList.length ≤ limit)
    (ht : EndsNumber t) :
    member limit depth ((Value.string s).print.toList ++ t) = .ok (some (.string s), t) :=
  member_print (by simp) rfl (Value.wholeNumbers_string s) hlimit ht

/-- The payload member keeps the text of its value, unless that is null. -/
theorem verbatim_print (v : Value) (hlimit : v.print.toList.length ≤ limit) (ht : EndsNumber t) :
    ∃ kept, verbatim limit depth (v.print.toList ++ t) = .ok (kept, t) ∧
      kept.getD "null" = v.print := by
  by_cases hv : v = .null
  · subst hv
    exact ⟨none, option_null _, rfl⟩
  · exact ⟨some v.print, option_print hv (readVerbatim_print v hlimit ht), rfl⟩

end LooseRequest

namespace Request

/-- The value that is sent as the payload: null if the payload is absent or does not decode. -/
def payloadValue (r : Request) : Value := (Value.parse r.payloadText).toOption.getD .null

/-- The members of a request other than its payload, as they are read. -/
def loose (r : Request) (payload : Option (Option String)) : LooseRequest :=
  ⟨some (some (.ofInt64 r.id)), some (some (.string r.op)), some (some (.string r.kind.code)),
    payload⟩

/-- The members of a request as it is printed. -/
def members (r : Request) : List (String × Value) :=
  match r.payload with
  | none => [("id", .ofInt64 r.id), ("op", .string r.op), ("type", .string r.kind.code)]
  | some _ => [("id", .ofInt64 r.id), ("op", .string r.op), ("payload", r.payloadValue),
      ("type", .string r.kind.code)]

theorem toValue_eq (r : Request) : r.toValue = .object r.members := by
  obtain ⟨id, op, kind, payload⟩ := r
  cases payload <;> rfl

section Members

variable {r : Request} {limit : Nat} (hlength : ∀ m ∈ r.members,
  (printString m.1).toList.length < limit ∧ m.2.print.toList.length < limit)

include hlength

/-- The members of a request without a payload are read again, one after another. -/
theorem read_members_absent (hpayload : r.payload = none) :
    LooseRequest.read limit maxDepth ('\x7b' ::
        (commaSeparated (r.members.map fun m => memberText m.1 m.2.print.toList) ++ ['\x7d'])) =
      .ok (r.loose none, []) := by
  have hmembers : r.members =
      [("id", .ofInt64 r.id), ("op", .string r.op), ("type", .string r.kind.code)] := by
    rw [members, hpayload]
  rw [hmembers] at hlength ⊢
  simp only [List.forall_mem_cons] at hlength
  obtain ⟨⟨-, hid⟩, ⟨-, hop⟩, ⟨htypeName, htype⟩, -⟩ := hlength
  have hlimit : 6 < limit := htypeName
  obtain ⟨n, hn⟩ : ∃ n, limit + 1 = n + 4 := ⟨limit - 3, by omega⟩
  have hopen : ∀ s, LooseRequest.read limit maxDepth ('\x7b' :: s) =
      LooseRequest.readMembers limit (maxDepth - 1) (limit + 1) true .empty s := fun _ => rfl
  rw [hopen, hn]
  simp only [List.map_cons, List.map_nil, commaSeparated, List.flatMap_cons, List.flatMap_nil,
    List.append_nil, List.append_assoc, List.cons_append]
  -- every member but the last is followed by a comma
  rw [LooseRequest.readMembers_id rfl (by omega)
      (LooseRequest.member_ofInt64 _ (by omega) (endsNumber_cons (Or.inl rfl) _)),
    LooseRequest.readMembers_op rfl (by omega)
      (LooseRequest.member_string _ (by omega) (endsNumber_cons (Or.inl rfl) _)),
    LooseRequest.readMembers_type rfl (by omega)
      (LooseRequest.member_string _ (by omega) (endsNumber_cons (Or.inr (Or.inr rfl)) _)),
    LooseRequest.readMembers_close]
  rfl

/-- The members of a request with a payload are read again; of the payload its text is kept. -/
theorem read_members_present {text : String} (hpayload : r.payload = some text) :
    ∃ kept : Option String,
      LooseRequest.read limit maxDepth ('\x7b' ::
          (commaSeparated (r.members.map fun m => memberText m.1 m.2.print.toList) ++ ['\x7d'])) =
        .ok (r.loose (some kept), []) ∧
      kept.getD "null" = r.payloadValue.print := by
  have hmembers : r.members = [("id", .ofInt64 r.id), ("op", .string r.op),
      ("payload", r.payloadValue), ("type", .string r.kind.code)] := by
    rw [members, hpayload]
  rw [hmembers] at hlength ⊢
  simp only [List.forall_mem_cons] at hlength
  obtain ⟨⟨-, hid⟩, ⟨-, hop⟩, ⟨hpayloadName, hpayloadText⟩, ⟨-, htype⟩, -⟩ := hlength
  have hlimit : 9 < limit := hpayloadName
  -- Four members and the brace need five rounds of the reader.
  obtain ⟨n, hn⟩ : ∃ n, limit + 1 = n + 5 := ⟨limit - 4, by omega⟩
  have hopen : ∀ s, LooseRequest.read limit maxDepth ('\x7b' :: s) =
      LooseRequest.readMembers limit (maxDepth - 1) (limit + 1) true .empty s := fun _ => rfl
  obtain ⟨kept, hkept, hprinted⟩ := LooseRequest.verbatim_print
    r.payloadValue (Nat.le_of_lt hpayloadText) (endsNumber_cons (Or.inl rfl)
      (memberText "type" (Value.string r.kind.code).print.toList ++ ['\x7d']))
  refine ⟨kept, ?_, hprinted⟩
  rw [hopen, hn]
  simp only [List.map_cons, List.map_nil, commaSeparated, List.flatMap_cons, List.flatMap_nil,
    List.append_nil, List.append_assoc, List.cons_append]
  -- One rewrite a member, in the order in which they are printed.
  rw [LooseRequest.readMembers_id rfl (by omega)
      (LooseRequest.member_ofInt64 _ (by omega) (endsNumber_cons (Or.inl rfl) _)),
    LooseRequest.readMembers_op rfl (by omega)
      (LooseRequest.member_string _ (by omega) (endsNumber_cons (Or.inl rfl) _)),
    LooseRequest.readMembers_payload rfl (by omega) hkept,
    LooseRequest.readMembers_type rfl (by omega)
      (LooseRequest.member_string _ (by omega) (endsNumber_cons (Or.inr (Or.inr rfl)) _)),
    LooseRequest.readMembers_close]
  rfl

/-- **The members of a request are read one by one**; the payload is kept as the text of its
value. -/
theorem read_members : ∃ payload : Option (Option String),
    LooseRequest.read limit maxDepth ('\x7b' ::
        (commaSeparated (r.members.map fun m => memberText m.1 m.2.print.toList) ++ ['\x7d'])) =
      .ok (r.loose payload, []) ∧
    payload.join.getD "null" = r.payloadValue.print := by
  cases hpayload : r.payload with
  | none =>
    have hnull : r.payloadText = "null" := by
      rw [payloadText, hpayload]
      rfl
    refine ⟨none, read_members_absent hlength hpayload, ?_⟩
    rw [payloadValue, hnull]
    rfl
  | some text =>
    obtain ⟨kept, hread, hprinted⟩ := read_members_present hlength hpayload
    exact ⟨some kept, hread, hprinted⟩

end Members

/-- **The text of a request is read back** up to the text of its payload. -/
theorem decode_encode (r : Request) :
    ∃ payload : Option (Option String),
      Json.decode LooseRequest.read r.encode = .ok (r.loose payload) ∧
        payload.join.getD "null" = r.payloadValue.print := by
  have hencode : r.encode.toList = '\x7b' ::
      (commaSeparated (r.members.map fun m => memberText m.1 m.2.print.toList) ++ ['\x7d']) := by
    rw [encode, toValue_eq, toList_print_object]
  have hlength : ∀ m ∈ r.members, (printString m.1).toList.length < r.encode.toList.length ∧
      m.2.print.toList.length < r.encode.toList.length := by
    rw [encode, toValue_eq]
    exact fun m hm => length_member hm
  obtain ⟨payload, hread, htext⟩ := read_members hlength
  refine ⟨payload, ?_, htext⟩
  rw [← hencode] at hread
  rw [Json.decode, readAll, hread]
  rfl

/-- What was read makes up a request with the same id, operation and kind. -/
theorem ofLoose_loose (r : Request) (hop : r.op ≠ "") (payload : Option (Option String)) :
    ofLoose (r.loose payload) = .ok { r with payload := payload.join } := by
  have hid : readId (some (.ofInt64 r.id)) = .ok r.id := by
    have hfits : -9223372036854775808 ≤ r.id.toInt ∧ r.id.toInt < 9223372036854775808 :=
      ⟨r.id.le_toInt, r.id.toInt_lt⟩
    simp [readId, Value.ofInt64, Number.ofInt64, hfits]
  have hop' : readOp (some (.string r.op)) = some r.op := by
    simp [readOp, hop]
  have hkind : readKind (some (.string r.kind.code)) = .ok r.kind := by
    simp [readKind, RequestKind.ofCode?_code]
  simp [ofLoose, loose, hid, hop', hkind]

/-! ## The payload on both sides -/

theorem decodePayload_value (r : Request) (v : Value) :
    r.decodePayload Decoder.value = .ok v ↔ Value.parse r.payloadText = .ok v := by
  have hdecode : Json.decode Decoder.value r.payloadText = Value.parse r.payloadText := rfl
  rw [decodePayload, hdecode]
  cases Value.parse r.payloadText <;> simp

/-- **Decoding undoes encoding.** A request whose operation is not empty is read back with the same
id, operation and kind. If the numbers in its payload are whole, that decodes to the same value as
before exactly if it is nested no deeper than can be read and no object in it has the embedding name
in front; an absent payload and one that did not decode both read as null. -/
theorem parse_encode (r : Request) (hop : r.op ≠ "") :
    ∃ r', Request.parse r.encode = .ok r' ∧ r'.id = r.id ∧ r'.op = r.op ∧ r'.kind = r.kind ∧
      (r.payload = none → r.decodePayload Decoder.value = .ok .null ∧
        r'.decodePayload Decoder.value = .ok .null) ∧
      (∀ v, r.decodePayload Decoder.value = .ok v → v.WholeNumbers →
        (r'.decodePayload Decoder.value = .ok v ↔ v.height ≤ maxDepth ∧ v.Unreserved)) ∧
      (∀ e, r.decodePayload Decoder.value = .error e →
        r'.decodePayload Decoder.value = .ok .null) := by
  obtain ⟨payload, hdecode, htext⟩ := r.decode_encode
  have hnull : Value.parse "null" = .ok .null := rfl
  refine ⟨{ r with payload := payload.join }, ?_, rfl, rfl, rfl, ?_, ?_, ?_⟩
  · rw [Request.parse, hdecode]
    exact r.ofLoose_loose hop payload
  · intro habsent
    have hold : Value.parse r.payloadText = .ok .null := by
      rw [payloadText, habsent]
      exact hnull
    refine ⟨(r.decodePayload_value _).mpr hold, (decodePayload_value _ _).mpr ?_⟩
    rw [payloadText, htext, payloadValue, hold]
    exact hnull
  · intro v hv hwhole
    rw [decodePayload_value] at hv
    -- the value that was decoded is the one that is printed
    have hvalue : r.payloadValue = v := by
      rw [payloadValue, hv]
      rfl
    rw [decodePayload_value, payloadText, htext, hvalue]
    exact parse_print_iff v hwhole (parse_ordered hv) (parse_unwrapped hv)
  · intro e he
    -- a payload that does not decode is printed as null
    have hvalue : r.payloadValue = .null := by
      rw [payloadValue]
      cases hparse : Value.parse r.payloadText with
      | error fault => rfl
      | ok v =>
        rw [(r.decodePayload_value v).mpr hparse] at he
        cases he
    rw [decodePayload_value, payloadText, htext, hvalue]
    exact hnull

/-- The round trip of a request with a list as its payload. -/
theorem parse_encode_list :
    let r : Request := ⟨7, "range", .multiRequest, some "[1,-2]"⟩
    let items : List Value := [.number (.int 1 (by decide)), .number (.int (-2) (by decide))]
    r.op ≠ "" ∧ ∃ r', Request.parse r.encode = .ok r' ∧ r'.id = 7 ∧ r'.op = "range" ∧
      r'.kind = .multiRequest ∧ r'.decodePayload Decoder.value = .ok (.array items) := by
  intro r items
  have hop : r.op ≠ "" := by decide
  obtain ⟨r', hparse, hid, hop', hkind, -, hback, -⟩ := parse_encode r hop
  -- the elements are numbers, inside which nothing else stands
  have hitem : ∀ {v u}, v ∈ items → v.Contains u → ∃ n, u = .number n ∧ n.int?.isSome := by
    intro v u hv hu
    rcases List.mem_cons.mp hv with rfl | hv
    · cases hu
      exact ⟨_, rfl, rfl⟩
    · obtain rfl := List.mem_singleton.mp hv
      cases hu
      exact ⟨_, rfl, rfl⟩
  have hwhole : (Value.array items).WholeNumbers := by
    intro n hcontains
    cases hcontains with
    | item hv hu =>
      obtain ⟨n, hn, hwhole⟩ := hitem hv hu
      cases hn
      exact hwhole
  have hobject : ∀ members, ¬ (Value.array items).Contains (.object members) := by
    intro members hcontains
    cases hcontains with
    | item hv hu =>
      obtain ⟨n, hn, -⟩ := hitem hv hu
      cases hn
  have hunreserved : (Value.array items).Unreserved :=
    fun members hcontains => absurd hcontains (hobject members)
  have hdecode : r.decodePayload Decoder.value = .ok (.array items) := by
    have htext : r.payloadText = (Value.array items).print := by decide +kernel
    rw [decodePayload_value, htext]
    exact parse_print _ hwhole (fun members hcontains => absurd hcontains (hobject members))
      hunreserved (by decide)
  exact ⟨hop, r', hparse, hid, hop', hkind, (hback _ hdecode hwhole).mpr ⟨by decide, hunreserved⟩⟩

/-- The condition on names is needed: this payload decodes, but is printed with the embedding name
in front, and is then refused. -/
theorem parse_encode_reserved :
    let r : Request := ⟨1, "x", .request,
      some "\x7b\"a\":1,\"$serde_json::private::RawValue\":\"x\"\x7d"⟩
    ∃ v r', r.decodePayload Decoder.value = .ok v ∧ v.WholeNumbers ∧ v.height ≤ maxDepth ∧
      Request.parse r.encode = .ok r' ∧ r'.decodePayload Decoder.value ≠ .ok v := by
  intro r
  let members : List (String × Value) :=
    [("a", .number (.int 1 (by decide))), (embeddingName, .string "x")]
  -- Printing sorts the members, and the reserved name comes first: what is read back is then taken
  -- for an embedded text.
  let r' : Request := { r with
    payload := some "\x7b\"$serde_json::private::RawValue\":\"x\",\"a\":1\x7d" }
  have hscalar : ∀ m ∈ members, m.2.height = 0 ∧ m.2.WholeNumbers := by
    intro m hm
    rcases List.mem_cons.mp hm with rfl | hm
    · refine ⟨rfl, fun n hcontains => ?_⟩
      cases hcontains
      rfl
    · obtain rfl := List.mem_singleton.mp hm
      refine ⟨rfl, fun n hcontains => ?_⟩
      cases hcontains
  have hobject : ∀ m ∈ members, ∀ ms, ¬ m.2.Contains (.object ms) := fun m hm =>
    Value.not_contains_object (hscalar m hm).1
  have hdecode : r.decodePayload Decoder.value = .ok (.ofMembers members) := by
    have htext : r.payloadText = (Value.object members).print := by decide +kernel
    rw [decodePayload_value, htext]
    refine parse_print_members (fun m hm => (hscalar m hm).2)
      (fun m hm ms hcontains => absurd hcontains (hobject m hm ms))
      (fun m hm ms hcontains => absurd hcontains (hobject m hm ms)) ?_ ?_
    · intro m hm
      obtain rfl := Option.some.inj hm
      decide
    · intro m hm
      rw [(hscalar m hm).1]
      decide
  refine ⟨.ofMembers members, r', hdecode, ?_, by decide, by decide +kernel, ?_⟩
  · intro n hcontains
    cases hcontains with
    | member hm hu => exact (hscalar _ (mem_insertAll hm)).2 n hu
  · intro h
    -- The text that is embedded is `x`, which is no JSON.
    have hrefused : (r'.decodePayload Decoder.value).isOk = false := by decide +kernel
    rw [h] at hrefused
    cases hrefused

end Request

end WsGateway
