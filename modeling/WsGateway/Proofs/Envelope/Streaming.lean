import Mathlib.Control.Monad.Basic
import WsGateway.Envelope.Response
import WsGateway.Proofs.Envelope.Writing
import WsGateway.Proofs.Json.Printed

/-!
# Streamed and materialized responses

A response can be streamed entry by entry or have its content as one value. Both ways write the same
frame around the body (`Response.frame`), so that the texts are equal where the bodies are
(`streamed_array`, `streamed_object`). The members of an object that is streamed stand in the order
in which they were written, with repetitions, and come to be ordered when the frame is read
(`parse_frame_object`); hence both ways decode to the same value (`streaming_agrees`).
-/

namespace WsGateway

open Json

namespace Response

/-! ## Two ways to write a response -/

/-- The text of a response whose list is streamed. -/
def streamArray (r : Response) (items : List Value) : Except Error String := do
  let (_, w) ← r.beginStream .array
  let w ← w.writeAll (fun w v => w.push (Content.value v).encoding) items
  pure w.finish

/-- The text of a response whose object is streamed. -/
def streamObject (r : Response) (members : List (String × Value)) : Except Error String := do
  let (_, w) ← r.beginStream .object
  let w ← w.writeAll (fun w m => w.entry m.1 (Content.value m.2).encoding) members
  pure w.finish

/-- The text of a response that is given its content as one value. -/
def materialize (r : Response) (content : Value) : Except Error String := do
  let r ← r.setContent (.value content)
  r.encode

/-! ## The frame around the body -/

/-- The members of a response, with something in place of the body and of each other value. -/
def frameMembers {α : Type} (r : Response) (scalar : Value → α) (body : α) : List (String × α) :=
  [("id", scalar (.ofUInt64 r.instanceId)), ("rerid", scalar (.ofInt64 r.rerid)),
    ("t", scalar (.string r.kind.code)), ("op", scalar (.string r.op)), ("msg", body)]

/-- The text of a response with the text of its body. -/
def frame (r : Response) (body : List Char) : List Char :=
  '\x7b' :: (commaSeparated ((r.frameMembers (fun v => v.print.toList) body).map
    fun m => memberText m.1 m.2) ++ ['\x7d'])

/-- The frame written out: each member behind its name, in the order of the envelope. -/
theorem frame_eq (r : Response) (body : List Char) : r.frame body =
    "\x7b\"id\":".toList ++ (toString r.instanceId.toNat).toList ++ ",\"rerid\":".toList
      ++ (toString r.rerid.toInt).toList ++ ",\"t\":".toList ++ (printString r.kind.code).toList
      ++ ",\"op\":".toList ++ (printString r.op).toList ++ ",\"msg\":".toList ++ body
      ++ ['\x7d'] := by
  have hid : '\x7b' :: (printString "id").toList ++ [':'] = "\x7b\"id\":".toList := rfl
  have hrerid : ',' :: (printString "rerid").toList ++ [':'] = ",\"rerid\":".toList := rfl
  have ht : ',' :: (printString "t").toList ++ [':'] = ",\"t\":".toList := rfl
  have hop : ',' :: (printString "op").toList ++ [':'] = ",\"op\":".toList := rfl
  have hmsg : ',' :: (printString "msg").toList ++ [':'] = ",\"msg\":".toList := rfl
  have hinstance : (Value.ofUInt64 r.instanceId).print = toString r.instanceId.toNat := rfl
  have hcorrelation : (Value.ofInt64 r.rerid).print = toString r.rerid.toInt := rfl
  have hstring : ∀ s, (Value.string s).print = printString s := fun _ => rfl
  rw [← hid, ← hrerid, ← ht, ← hop, ← hmsg, ← hinstance, ← hcorrelation,
    ← hstring r.kind.code, ← hstring r.op]
  simp only [frame, frameMembers, memberText, List.map_cons, List.map_nil, commaSeparated,
    List.flatMap_cons, List.flatMap_nil, List.append_assoc, List.cons_append, List.nil_append,
    List.append_nil]

/-- What is printed is the frame around the content. -/
theorem print_eq_frame (r : Response) :
    r.print.toList = r.frame (r.content?.getD .null).print.toList := by
  have hclose : "\x7d".toList = ['\x7d'] := rfl
  rw [print_eq, frame_eq]
  simp only [String.toList_append, hclose]

/-- The header of a list is the frame up to the list. -/
theorem toList_header_array (r : Response) (inner : List Char) :
    (StreamWriter.header r.instanceId r.rerid r.kind r.op .array).toList ++
        (inner ++ [']', '\x7d']) =
      r.frame ('[' :: (inner ++ [']'])) := by
  have hopen : ",\"msg\":[".toList = ",\"msg\":".toList ++ ['['] := rfl
  rw [StreamWriter.header_eq, frame_eq]
  simp only [String.toList_append, hopen, List.append_assoc, List.cons_append, List.nil_append]

/-- The header of an object is the frame up to the object. -/
theorem toList_header_object (r : Response) (inner : List Char) :
    (StreamWriter.header r.instanceId r.rerid r.kind r.op .object).toList ++
        (inner ++ ['\x7d', '\x7d']) =
      r.frame ('\x7b' :: (inner ++ ['\x7d'])) := by
  have hopen : ",\"msg\":\x7b".toList = ",\"msg\":".toList ++ ['\x7b'] := rfl
  rw [StreamWriter.header_eq, frame_eq]
  simp only [String.toList_append, hopen, List.append_assoc, List.cons_append, List.nil_append]

/-- **A streamed list** is the frame around it. -/
theorem streamArray_eq (r : Response) (hempty : r.body = .empty) (items : List Value) :
    ∃ text, r.streamArray items = .ok text ∧
      text.toList = r.frame (Value.array items).print.toList := by
  obtain ⟨w, hw, hwritten⟩ := StreamWriter.Written.writeAll
    (fun w v => w.push (Content.value v).encoding) (fun v => v.print.toList)
    (fun h v => h.push_value v) items
    (StreamWriter.written_openWith r.instanceId r.rerid r.kind r.op .array)
  refine ⟨w.finish, ?_, ?_⟩
  · simp only [streamArray, beginStream, hempty, bind, Except.bind, hw, pure, Except.pure]
  · rw [hwritten.finish_array, List.nil_append, r.toList_header_array, toList_print_array]

/-- **A streamed object** is the frame around its members in the order in which they were
written. -/
theorem streamObject_eq (r : Response) (hempty : r.body = .empty)
    (members : List (String × Value)) :
    ∃ text, r.streamObject members = .ok text ∧
      text.toList = r.frame (Value.object members).print.toList := by
  obtain ⟨w, hw, hwritten⟩ := StreamWriter.Written.writeAll
    (fun w (m : String × Value) => w.entry m.1 (Content.value m.2).encoding)
    (fun m => memberText m.1 m.2.print.toList)
    (fun h m => h.entry_value m) members
    (StreamWriter.written_openWith r.instanceId r.rerid r.kind r.op .object)
  refine ⟨w.finish, ?_, ?_⟩
  · simp only [streamObject, beginStream, hempty, bind, Except.bind, hw, pure, Except.pure]
  · rw [hwritten.finish_object, List.nil_append, r.toList_header_object, toList_print_object]

/-- A response with a content is the frame around it. -/
theorem materialize_eq (r : Response) (hempty : r.body = .empty) (content : Value) :
    ∃ text, r.materialize content = .ok text ∧ text.toList = r.frame content.print.toList := by
  refine ⟨Response.print { r with body := .content content }, ?_, print_eq_frame _⟩
  simp only [materialize, setContent, isStreaming, hempty, Content.toValue, bind, Except.bind,
    encode]
  rfl

/-! ## Reading the frame -/

def frameValue (r : Response) (body : Value) : Value := .ofMembers (r.frameMembers id body)

def textAndValue (v : Value) : List Char × Value := (v.print.toList, v)

/-- The members of the frame are read if the body is, since the other ones are scalars. -/
theorem readsAs_frameMembers (r : Response) {limit depth : Nat} {body : List Char} {v : Value}
    (hlimit : ∀ m ∈ r.frameMembers textAndValue (body, v), m.2.1.length ≤ limit)
    (hbody : ReadsAs (readValue limit depth) body v) :
    ∀ m ∈ r.frameMembers textAndValue (body, v),
      ReadsAs (readValue limit depth) m.2.1 m.2.2 := by
  have hscalar : ∀ {u : Value}, u.height = 0 → u.WholeNumbers → u.print.toList.length ≤ limit →
      ReadsAs (readValue limit depth) u.print.toList u :=
    fun hheight hwhole hprint => readsAs_of_exact fun t ht =>
      readValueWith_scalar hheight hwhole _ hprint ht
  intro m hm
  have hprint := hlimit m hm
  simp only [frameMembers, List.mem_cons, List.not_mem_nil, or_false] at hm
  rcases hm with rfl | rfl | rfl | rfl | rfl
  -- two numbers, two strings, and the body
  all_goals dsimp only [textAndValue] at hprint ⊢
  · exact hscalar rfl (Value.wholeNumbers_int _ _) hprint
  · exact hscalar rfl (Value.wholeNumbers_int _ _) hprint
  · exact hscalar rfl (Value.wholeNumbers_string _) hprint
  · exact hscalar rfl (Value.wholeNumbers_string _) hprint
  · exact hbody

/-- **The frame is read** if the body is. -/
theorem parse_frame (r : Response) {text : String} {body : List Char} {v : Value}
    (htext : text.toList = r.frame body)
    (hbody : ReadsAs (readValue text.toList.length (maxDepth - 1)) body v) :
    Value.parse text = .ok (r.frameValue v) := by
  have hframe : text.toList = '\x7b' :: (commaSeparated
      ((r.frameMembers textAndValue (body, v)).map fun m => memberText m.1 m.2.1) ++
        '\x7d' :: []) := htext
  have hlength : (commaSeparated ((r.frameMembers textAndValue (body, v)).map
      fun m => memberText m.1 m.2.1)).length ≤ text.toList.length := by
    rw [hframe, List.length_cons, List.length_append]
    omega
  have hmember : ∀ m ∈ r.frameMembers textAndValue (body, v),
      (printString m.1).toList.length + m.2.1.length ≤ text.toList.length := fun m hm =>
    Nat.le_trans (Nat.le_of_lt (length_le_separated Prod.fst hm)) hlength
  have hname : "id" ≠ embeddingName := by decide
  -- the limit is the length of the text, which bounds names, values and their number
  have hmembers := readValueWith_members Prod.fst Prod.snd
    (r.frameMembers textAndValue (body, v))
    (fun m hm => Nat.le_trans (Nat.le_add_right _ _) (hmember m hm))
    (fun m hm => Option.some.inj hm ▸ hname)
    (r.readsAs_frameMembers (fun m hm => Nat.le_trans (Nat.le_add_left _ _) (hmember m hm)) hbody)
    (Nat.le_trans (count_le_separated Prod.fst _) hlength) []
  rw [← hframe] at hmembers
  have hwhole : readValue text.toList.length maxDepth text.toList = .ok (r.frameValue v, []) :=
    hmembers
  rw [Value.parse, readAll, hwhole]
  rfl

/-- The frame around an object decodes to the same value for all lists of members that come to the
same when they are put in. -/
theorem parse_frame_object (r : Response) {members : List (String × Value)} {text : String}
    (htext : text.toList = r.frame (Value.object members).print.toList)
    (hvalues : ∀ m ∈ members, ∃ v, Value.parseWithin (maxDepth - 2) m.2.print = .ok v)
    (hname : ∀ m ∈ members.head?, m.1 ≠ embeddingName) :
    Value.parse text =
      .ok (r.frameValue (.ofMembers (mapValues (Value.reread (maxDepth - 2)) members))) := by
  refine r.parse_frame htext (readsAs_object hvalues hname ?_)
  have hbody : ("msg", (Value.object members).print.toList) ∈
      r.frameMembers (fun v => v.print.toList) (Value.object members).print.toList := by
    simp [frameMembers]
  have hlength := length_le_separated (fun text : List Char => text) hbody
  rw [htext, frame, List.length_cons, List.length_append]
  dsimp only at hlength
  omega

/-! ## Agreement -/

/-- **Streaming and materializing agree.** A list that is streamed and one that is the content give
the same text. Members that are streamed give the text of the object that they make up if they
ascend, and otherwise a text that decodes to the same value, if their values can be decoded in their
place and neither the first nor the least name is the embedding name. -/
theorem streaming_agrees (instanceId : UInt64) (rerid : Int64) (kind : ResponseKind)
    (op? : Option String) :
    let r : Response := ⟨instanceId, rerid, kind, op?, .empty⟩
    (∀ items, ∃ text, r.streamArray items = .ok text ∧ r.materialize (.array items) = .ok text) ∧
    (∀ members, ∃ streamed materialized, r.streamObject members = .ok streamed ∧
      r.materialize (.ofMembers members) = .ok materialized ∧
      (Ascending members → streamed = materialized) ∧
      ((∀ m ∈ members, ∃ v, Value.parseWithin (maxDepth - 2) m.2.print = .ok v) →
        (∀ m ∈ members.head?, m.1 ≠ embeddingName) →
        (∀ m ∈ (insertAll members).head?, m.1 ≠ embeddingName) →
        ∃ v, Value.parse streamed = .ok v ∧ Value.parse materialized = .ok v)) := by
  intro r
  refine ⟨fun items => ?_, fun members => ?_⟩
  -- both texts are the frame around the same body
  · obtain ⟨streamed, hstreamed, htext⟩ := r.streamArray_eq rfl items
    obtain ⟨materialized, hmaterialized, htext'⟩ := r.materialize_eq rfl (.array items)
    obtain rfl := String.toList_inj.mp (htext.trans htext'.symm)
    exact ⟨streamed, hstreamed, hmaterialized⟩
  · obtain ⟨streamed, hstreamed, htext⟩ := r.streamObject_eq rfl members
    obtain ⟨materialized, hmaterialized, htext'⟩ := r.materialize_eq rfl (.ofMembers members)
    rw [ofMembers_eq] at htext'
    refine ⟨streamed, materialized, hstreamed, hmaterialized, ?_, ?_⟩
    · intro hascending
      rw [insertAll_of_ascending hascending] at htext'
      exact String.toList_inj.mp (htext.trans htext'.symm)
    · intro hvalues hfirst hleast
      -- putting the members in before or after printing comes to the same
      refine ⟨_, r.parse_frame_object htext hvalues hfirst, ?_⟩
      rw [r.parse_frame_object htext' (fun m hm => hvalues m (mem_insertAll hm)) hleast,
        ofMembers_eq, ofMembers_eq, insertAll_mapValues_insertAll]

/-- The condition on names is needed: these members are streamed as they come, but the object that
they make up has the embedding name in front, and is refused. -/
theorem streaming_differs_reserved :
    let r : Response := ⟨1, 7, .response, some "list", .empty⟩
    let members := [("a", .bool true), (embeddingName, Value.string "[1]")]
    ∃ streamed materialized, r.streamObject members = .ok streamed ∧
      r.materialize (.ofMembers members) = .ok materialized ∧
      (∀ m ∈ members, (Value.parseWithin (maxDepth - 2) m.2.print).isOk) ∧
      (Value.parse streamed).isOk ∧ ¬ (Value.parse materialized).isOk := by
  intro r members
  refine ⟨"\x7b\"id\":1,\"rerid\":7,\"t\":\"resp\",\"op\":\"list\",\"msg\":\x7b\"a\":true,\""
      ++ embeddingName ++ "\":\"[1]\"\x7d\x7d",
    "\x7b\"id\":1,\"rerid\":7,\"t\":\"resp\",\"op\":\"list\",\"msg\":\x7b\""
      ++ embeddingName ++ "\":\"[1]\",\"a\":true\x7d\x7d",
    by decide +kernel, by decide +kernel, by decide +kernel, by decide +kernel, by decide +kernel⟩

end Response

end WsGateway
