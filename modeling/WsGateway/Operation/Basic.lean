import WsGateway.Subscriptions

/-!
# Operations

A handler of an operation answers a request by itself; it may reach connections and take
instance ids, and it succeeds, fails with an error, or breaks off with a text. It cannot touch
the subscriptions.
-/

namespace WsGateway

inductive Failure where
  | error (e : Error)
  /-- The handler broke off. -/
  | abort (text : String)
  deriving DecidableEq, Repr

namespace Failure

def message : Failure → String
  | .error e => e.message
  | .abort text => text

end Failure

/-- What a handler does: changes to the links, and success or a failure. -/
abbrev OpAction := ExceptT Failure (StateM Links)

/-- One invocation: a request and the connection that it came from. -/
structure OpCall where
  request : Request
  link : Link

abbrev OpHandler := OpCall → OpAction Unit

namespace OpAction

def fail {α : Type} (e : Error) : OpAction α := throw (.error e)

def abort {α : Type} (text : String) : OpAction α := throw (.abort text)

def ofExcept {α : Type} : Except Error α → OpAction α
  | .ok a => pure a
  | .error e => fail e

def onLinks {α : Type} (f : Links → α × Links) : OpAction α := fun l =>
  let (a, l) := f l
  (.ok a, l)

/-- A change of the links that may fail. -/
def tryLinks {α : Type} (f : Links → Except Error α × Links) : OpAction α := fun l =>
  let (result, l) := f l
  match result with
  | .ok a => (.ok a, l)
  | .error e => (.error (.error e), l)

end OpAction

namespace OpCall

/-- The payload as another type. -/
def payload {α : Type} (call : OpCall) (decoder : Json.Decoder α) : OpAction α :=
  .ofExcept (call.request.decodePayload decoder)

def reply (call : OpCall) : OpAction Reply :=
  .onLinks fun l =>
    let (instanceId, l) := l.freshInstance
    (⟨.forRequest instanceId call.request .response, call.link⟩, l)

def answer (call : OpCall) (c : Content) : OpAction Unit := do
  let r ← call.reply
  let r ← OpAction.ofExcept (r.setContent c)
  let _ ← OpAction.tryLinks r.send

/-- The error of an operation that does not support the kind of the request. -/
def unsupported {α : Type} (call : OpCall) (op : String) : OpAction α :=
  .fail (.unsupported (op ++ " does not support " ++ call.request.kind.code))

end OpCall

abbrev Operations := FinMap String OpHandler

namespace Operations

/-- The operations with one more, unless its name is empty or taken. -/
def register (ops : Operations) (name : String) (handler : OpHandler) : Except Error Operations :=
  if name.isEmpty then .error (.config "operation name must not be empty")
  else if FinMap.contains ops name then
    .error (.duplicate ("operation already registered: " ++ name))
  else .ok (FinMap.insert ops name handler)

def lookup (ops : Operations) (name : String) : Option OpHandler := FinMap.get? ops name

def names (ops : Operations) : List String :=
  (FinMap.keys ops).mergeSort fun a b => decide (a ≤ b)

end Operations

end WsGateway
