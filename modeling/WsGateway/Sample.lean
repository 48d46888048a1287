import WsGateway.Gateway.Endpoints
import WsGateway.Text.Split

/-!
# Sample handlers

Small handlers that are chosen by name, for trying out a gateway: one for each way in which a
handler can answer, stream, misuse its reply, fail or break off.
-/

namespace WsGateway.Sample

open Json (Value)

/-! ## Failures -/

/-- What stands behind the first colon and in front of it. -/
def splitColon (s : List Char) : String × String :=
  (String.ofList (s.takeWhile (· ≠ ':')), String.ofList ((s.dropWhile (· ≠ ':')).drop 1))

/-- The failure that the name of a handler stands for, if it does: an error with its kind and
text, or a text to break off with. -/
def failure? (name : String) : Option Failure :=
  match Text.after? "fail:".toList name.toList, Text.after? "panic:".toList name.toList with
  | some rest, _ =>
    let (kind, text) := splitColon rest
    some (.error (.ofKind kind text))
  | none, some rest => some (.abort (String.ofList rest))
  | none, none =>
    if name = "panic_static" then some (.abort "handler blew up")
    else if name = "panic_any" then some (.abort "handler panicked")
    else none

/-! ## Handlers of operations -/

def silent : OpHandler := fun _ => pure ()

def send (r : Reply) : OpAction Unit := do
  let _ ← OpAction.tryLinks r.send

def finish (s : StreamingReply) : OpAction Unit := do
  let _ ← OpAction.onLinks s.finish

def putMembers (s : StreamingReply) : List (String × Value) → Except Error StreamingReply
  | [] => .ok s
  | (key, v) :: rest =>
    match s.entry key (.value v) with
    | (.ok _, s) => putMembers s rest
    | (.error e, _) => .error e

def putElements (s : StreamingReply) : List Value → Except Error StreamingReply
  | [] => .ok s
  | v :: rest =>
    match s.push (.value v) with
    | (.ok _, s) => putElements s rest
    | (.error e, _) => .error e

def count : OpHandler := fun call =>
  call.answer (.value (.object [("seen", .ofInt64 call.request.id)]))

/-- Answers, and fails after that. -/
def sendThenFail : OpHandler := fun call => do
  call.answer (.text "partial")
  OpAction.fail (.internal "after send")

def streamObject : OpHandler := fun call => do
  match ← call.payload Json.Decoder.value with
  | .object members =>
    let r ← call.reply
    let s ← OpAction.ofExcept (r.stream .object)
    finish (← OpAction.ofExcept (putMembers s members))
  | _ => OpAction.fail (.badRequest "object wanted")

/-- Streams the elements of the payload; if there are more than three it takes them back. -/
def streamArray : OpHandler := fun call => do
  let items ← call.payload (Json.Decoder.list Json.Decoder.value)
  let r ← call.reply
  let s ← OpAction.ofExcept (r.stream .array)
  let s ← OpAction.ofExcept (putElements s items)
  finish (if items.length > 3 then s.reset else s)

/-- Sets a content and then starts a stream, which is refused. -/
def mixed : OpHandler := fun call => do
  let r ← call.reply
  let r ← OpAction.ofExcept (r.setContent (.text "x"))
  finish (← OpAction.ofExcept (r.stream .object))

/-- Pushes an element to a stream of members, which is refused. -/
def wrongShape : OpHandler := fun call => do
  let r ← call.reply
  let s ← OpAction.ofExcept (r.stream .object)
  finish (← OpAction.ofExcept (putElements s [.ofInt64 1]))

/-- Answers under another operation, and then sends the payload as an event. -/
def promote : OpHandler := fun call => do
  let r ← call.reply
  let r ← OpAction.ofExcept ((r.setOp (call.request.op ++ "!")).setContent (.text "ok"))
  send r
  let r ← OpAction.onLinks (r.promote .event)
  let v ← call.payload Json.Decoder.value
  send (← OpAction.ofExcept (r.setContent (.value v)))

def close : OpHandler := fun call => do
  OpAction.onLinks fun l => ((), l.close call.link)
  call.answer (.text "late")
  let r ← call.reply
  finish (← OpAction.ofExcept (r.stream .array))

def bare : OpHandler := fun call => do send (← call.reply)

def operations : List (String × OpHandler) :=
  builtinOperations ++
    [("count", count), ("send_fail", sendThenFail), ("object", streamObject),
      ("array", streamArray), ("mixed", mixed), ("wrong_shape", wrongShape),
      ("promote", promote), ("close", close), ("bare", bare)]

/-- The handler of an operation that a name stands for; other names do nothing. -/
def opHandler (name : String) : OpHandler :=
  match failure? name with
  | some f => fun _ => throw f
  | none => (operations.lookup name).getD silent

/-! ## Handlers of paths -/

def info : HttpHandler := fun ex =>
  pure (Http.textResponse .ok Http.plainText
    ("route=" ++ ex.route ++ " peer=" ++ ex.peer.print ++ " method=" ++ ex.request.method
      ++ " path=" ++ ex.request.path))

def body : HttpHandler := fun ex =>
  match ex.body with
  | .ok bytes => pure ⟨.ok, [("content-type", Http.headerValue "application/octet-stream")], bytes⟩
  | .error reason => HttpAction.fail (.internal ("body: " ++ reason))

/-- Answers with headers that a policy on origins sets as well. -/
def vary : HttpHandler := fun _ =>
  let page := Http.textResponse .ok Http.plainText "v"
  pure
    { page with
      headers := page.headers ++
        [("vary", Http.headerValue "Accept"),
          ("access-control-allow-origin", Http.headerValue "preset")] }

def ok : HttpHandler := fun _ => pure (Http.textResponse .ok Http.plainText "ok")

def endpoints : List (String × HttpHandler) :=
  Endpoint.operational ++
    [("upgrade", Endpoint.upgrade), ("info", info), ("body", body), ("vary", vary)]

/-- The handler of a path that a name stands for; other names answer that all is well. -/
def httpHandler (name : String) : HttpHandler :=
  match failure? name with
  | some f => fun _ => throw f
  | none => (endpoints.lookup name).getD ok

end WsGateway.Sample
