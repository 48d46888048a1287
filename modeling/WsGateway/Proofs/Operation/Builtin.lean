import WsGateway.Operation.Builtin
import WsGateway.Proofs.Envelope.Streaming
import WsGateway.Proofs.Operation.Contract

/-!
# What the built-in operations answer

A built-in operation answers by the request alone: its contents are values that are sent one after
another, each as one response, or an error before anything was sent (`Answers`). Every operation
has its contents as a function of the request (`Ping.contents`, `Echo.contents`, `Range.contents`,
`Heartbeat.contents`), and every handler is shown to answer by them. For `range` that takes the
list which is streamed to be the list as one value.
-/

namespace WsGateway

open Json (Value)

namespace OpAction

/-! ## Steps of a handler -/

variable {α β : Type}

/-- A step that succeeds hands its value and its connections to the next one. -/
theorem bind_of_ok {x : OpAction α} {f : α → OpAction β} {l l' : Links} {a : α}
    (h : x l = (.ok a, l')) : (x >>= f) l = f a l' := by
  show ExceptT.bindCont f (x l).1 (x l).2 = f a l'
  rw [h]
  rfl

/-- A step that fails ends the action. -/
theorem bind_of_error {x : OpAction α} {f : α → OpAction β} {l l' : Links} {e : Failure}
    (h : x l = (.error e, l')) : (x >>= f) l = (.error e, l') := by
  show ExceptT.bindCont f (x l).1 (x l).2 = (.error e, l')
  rw [h]
  rfl

end OpAction

/-! ## Answering by contents -/

/-- The answer to a request with a content. -/
def answerTo (r : Request) (v : Value) : Response := ⟨0, r.id, .response, some r.op, .content v⟩

/-- The error of an operation for a kind of request that it does not support. -/
def unsupportedKind (op : String) (kind : RequestKind) : Error :=
  .unsupported (op ++ " does not support " ++ kind.code)

/-- A handler sends one answer for each content of the request, in order, or fails with an error
and sends nothing. -/
def Answers (handler : OpHandler) (contents : Request → Except Error (List Value)) : Prop :=
  ∀ r k l, handler ⟨r, k⟩ l =
    match contents r with
    | .ok vs => (.ok (), l.respond k (vs.map (answerTo r)))
    | .error e => (.error (.error e), l)

theorem answer_value (r : Request) (k : Link) (v : Value) (l : Links) :
    OpCall.answer ⟨r, k⟩ (.value v) l = (.ok (), l.respond k [answerTo r v]) := rfl

theorem unsupported_apply {α : Type} (r : Request) (k : Link) (op : String) (l : Links) :
    (OpCall.unsupported ⟨r, k⟩ op : OpAction α) l =
      (.error (.error (unsupportedKind op r.kind)), l) := rfl

/-- A payload that decodes is the value of its step. -/
theorem payload_of_ok {α : Type} {r : Request} {decoder : Json.Decoder α} {a : α}
    (h : r.decodePayload decoder = .ok a) (k : Link) (l : Links) :
    (OpCall.payload ⟨r, k⟩ decoder) l = (.ok a, l) := by
  rw [OpCall.payload, h]
  rfl

/-- A payload that does not decode fails its step with the decoder's message. -/
theorem payload_of_error {α : Type} {r : Request} {decoder : Json.Decoder α} {e : Error}
    (h : r.decodePayload decoder = .error e) (k : Link) (l : Links) :
    (OpCall.payload ⟨r, k⟩ decoder) l = (.error (.error e), l) := by
  rw [OpCall.payload, h]
  rfl

/-! ## The contents of each operation -/

namespace Ping

/-- A fixed text, whether one answer or several are asked for. -/
def contents (r : Request) : Except Error (List Value) :=
  match r.kind with
  | .request | .multiRequest => .ok [.string "pong"]
  | _ => .error (unsupportedKind op r.kind)

theorem answers : Answers handler contents := by
  rintro ⟨id, name, kind, payload⟩ k l
  cases kind <;> rfl

end Ping

namespace Echo

/-- The payload, or each of its elements if it is a list and several answers are asked for. -/
def contents (r : Request) : Except Error (List Value) :=
  match r.decodePayload Json.Decoder.value with
  | .error e => .error e
  | .ok v =>
    match r.kind, v with
    | .multiRequest, .array items => .ok items
    | .multiRequest, v | .request, v => .ok [v]
    | _, _ => .error (unsupportedKind op r.kind)

/-- By induction on the values; each answer takes its instance id behind the one before. -/
theorem answerEach_apply (r : Request) (k : Link) (vs : List Value) (l : Links) :
    answerEach ⟨r, k⟩ vs l = (.ok (), l.respond k (vs.map (answerTo r))) := by
  induction vs generalizing l with
  | nil => rfl
  | cons v rest ih =>
    rw [answerEach, OpAction.bind_of_ok (answer_value r k v l), ih]
    rfl

theorem answers : Answers handler contents := by
  intro r k l
  unfold handler contents
  cases h : r.decodePayload Json.Decoder.value with
  | error e => rw [OpAction.bind_of_error (payload_of_error h k l)]
  | ok v =>
    rw [OpAction.bind_of_ok (payload_of_ok h k l)]
    obtain ⟨id, name, kind, payload⟩ := r
    cases kind with
    | multiRequest =>
      cases v with
      | array items => exact answerEach_apply _ k items l
      | _ => exact answer_value _ k _ l
    | request => exact answer_value _ k v l
    | _ => exact unsupported_apply _ k op l

end Echo

namespace Heartbeat

/-- An acknowledgement of the start or the end of a subscription. -/
def contents (r : Request) : Except Error (List Value) :=
  match r.kind with
  | .subscribe => .ok [.string "subscribed"]
  | .unsubscribe => .ok [.string "unsubscribed"]
  | _ => .error (unsupportedKind op r.kind)

theorem answers : Answers handler contents := by
  rintro ⟨id, name, kind, payload⟩ k l
  cases kind <;> rfl

end Heartbeat

namespace Range

def numbers (count : Nat) : Value :=
  .array ((List.range count).map fun n => .ofUInt64 (UInt64.ofNat n))

/-- The numbers below the count, for every kind of request. -/
def contents (r : Request) : Except Error (List Value) :=
  match r.decodePayload decoder with
  | .error e => .error e
  | .ok count =>
    if count > maxCount then
      .error (.badRequest ("range count must be <= " ++ toString maxCount))
    else .ok [numbers count.toNat]

/-- Pushing numbers is writing their values into the stream. -/
theorem pushAll_eq (target : Link) (ns : List Nat) (w : StreamWriter) :
    pushAll ⟨w, target⟩ ns =
      (w.writeAll (fun w v => w.push (Content.value v).encoding)
        (ns.map fun n => .ofUInt64 (UInt64.ofNat n))).map fun w => ⟨w, target⟩ := by
  induction ns generalizing w with
  | nil => rfl
  | cons n rest ih =>
    cases hwrite : w.push (Content.value (.ofUInt64 (UInt64.ofNat n))).encoding with
    | mk result w' =>
      have hpush : StreamingReply.push ⟨w, target⟩ (number n) = (result, ⟨w', target⟩) := by
        show ((w.push (number n).encoding).1,
          StreamingReply.mk (w.push (number n).encoding).2 target) = _
        rw [number, hwrite]
      rw [pushAll, List.map_cons, StreamWriter.writeAll]
      simp only [hpush, hwrite]
      cases result with
      | ok a => exact ih w'
      | error e => rfl

/-- The stream of the numbers is finished, and its text is that of the answer with their list. -/
theorem pushAll_range (r : Request) (k : Link) (instanceId : UInt64) (count : Nat) :
    ∃ w, pushAll ⟨.openWith instanceId r.id .response r.op .array, k⟩ (List.range count) =
        .ok ⟨w, k⟩ ∧
      Frame.text w.finish = (answerTo r (numbers count)).toFrame instanceId := by
  obtain ⟨text, hstream, htext⟩ := Response.streamArray_eq
    (.forRequest instanceId r .response) rfl
    ((List.range count).map fun n => .ofUInt64 (UInt64.ofNat n))
  -- the two texts have the same frame around the same list
  have hprint := Response.print_eq_frame
    { answerTo r (numbers count) with instanceId := instanceId }
  have hsame : text = Response.print { answerTo r (numbers count) with instanceId := instanceId } :=
    String.toList_inj.mp (htext.trans hprint.symm)
  obtain ⟨⟨_, w₀⟩, hopen, hwrite⟩ := Json.bind_eq_ok.mp hstream
  cases hopen
  obtain ⟨w, hw, hfinish⟩ := Json.bind_eq_ok.mp hwrite
  cases hfinish
  refine ⟨w, ?_, congrArg Frame.text hsame⟩
  rw [pushAll_eq]
  exact congrArg (Except.map fun w => StreamingReply.mk w k) hw

theorem answers : Answers handler contents := by
  intro r k l
  unfold handler contents
  cases h : r.decodePayload decoder with
  | error e => rw [OpAction.bind_of_error (payload_of_error h k l)]
  | ok count =>
    rw [OpAction.bind_of_ok (payload_of_ok h k l)]
    by_cases hmax : count > maxCount
    · simp only [if_pos hmax]
      rfl
    · obtain ⟨w, hw, htext⟩ := pushAll_range r k l.nextInstance count.toNat
      have hpushed : (OpAction.ofExcept (pushAll
          ⟨.openWith l.nextInstance r.id .response r.op .array, k⟩ (List.range count.toNat)))
          l.freshInstance.2 = (.ok ⟨w, k⟩, l.freshInstance.2) := by
        rw [hw]
        rfl
      simp only [if_neg hmax]
      -- the reply takes an instance id, becomes a stream, is filled, and is written at the end
      show ((OpAction.ofExcept (pushAll
          ⟨.openWith l.nextInstance r.id .response r.op .array, k⟩ (List.range count.toNat))) >>=
          fun s => OpAction.onLinks s.finish >>= fun _ => pure ()) l.freshInstance.2 = _
      rw [OpAction.bind_of_ok hpushed]
      show (Except.ok (), (l.freshInstance.2.write k (.text w.finish)).2) = _
      rw [htext]
      rfl

end Range

end WsGateway
