import WsGateway.Envelope.Request
import WsGateway.Envelope.Stream

/-!
# Responses

A response either has its content as one value or is streamed, and never both: the first way
that is chosen stays. Every response has an instance id of its own.
-/

namespace WsGateway

open Json (Value)

/-- How far the body of a response is decided. -/
inductive Body where
  | empty
  | content (v : Value)
  | streaming

structure Response where
  instanceId : UInt64
  rerid : Int64
  kind : ResponseKind
  op? : Option String
  body : Body

namespace Response

def defaultOp : String := "ok"

def create (instanceId : UInt64) (rerid : Int64) (kind : ResponseKind) : Response :=
  ⟨instanceId, rerid, kind, none, .empty⟩

/-- A response to a request: it has the request's id and operation. -/
def forRequest (instanceId : UInt64) (r : Request) (kind : ResponseKind) : Response :=
  ⟨instanceId, r.id, kind, some r.op, .empty⟩

def failure (instanceId : UInt64) (rerid : Int64) (op : Option String) (message : String) :
    Response :=
  ⟨instanceId, rerid, .error, op, .content (.string message)⟩

/-- A response of another kind with the same id and operation, and no body yet. -/
def cloneAs (r : Response) (instanceId : UInt64) (kind : ResponseKind) : Response :=
  ⟨instanceId, r.rerid, kind, r.op?, .empty⟩

def op (r : Response) : String := r.op?.getD defaultOp

def setOp (r : Response) (op : String) : Response := { r with op? := some op }

def content? (r : Response) : Option Value :=
  match r.body with
  | .content v => some v
  | _ => none

def isStreaming (r : Response) : Bool :=
  match r.body with
  | .streaming => true
  | _ => false

/-- The response with a content, unless it is being streamed or the content fails. -/
def setContent (r : Response) (c : Content) : Except Error Response :=
  if r.isStreaming then .error (.unsupported "cannot set content: streaming already started")
  else
    match c.toValue with
    | .error message => .error (.internal ("content encode failed: " ++ message))
    | .ok v => .ok { r with body := .content v }

def beginStream (r : Response) (shape : StreamShape) : Except Error (Response × StreamWriter) :=
  match r.body with
  | .content _ => .error (.unsupported "cannot start streaming: content already set")
  | .streaming => .error (.unsupported "stream already opened")
  | .empty =>
    .ok ({ r with body := .streaming }, .openWith r.instanceId r.rerid r.kind r.op shape)

/-- The whole text of a response whose content is not streamed. -/
def print (r : Response) : String :=
  "\x7b\"id\":" ++ toString r.instanceId.toNat ++ ",\"rerid\":" ++ toString r.rerid.toInt
    ++ ",\"t\":" ++ Json.printString r.kind.code ++ ",\"op\":" ++ Json.printString r.op
    ++ ",\"msg\":" ++ (r.content?.getD .null).print ++ "\x7d"

theorem print_eq (r : Response) : r.print =
    "\x7b\"id\":" ++ toString r.instanceId.toNat ++ ",\"rerid\":" ++ toString r.rerid.toInt
      ++ ",\"t\":" ++ Json.printString r.kind.code ++ ",\"op\":" ++ Json.printString r.op
      ++ ",\"msg\":" ++ (r.content?.getD .null).print ++ "\x7d" := rfl

def encode (r : Response) : Except Error String :=
  if r.isStreaming then
    .error (.unsupported "streaming response is written by its StreamWriter")
  else .ok r.print

end Response

end WsGateway
