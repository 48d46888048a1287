import WsGateway.Gateway.Endpoints
import WsGateway.Text.Digits

/-!
# Demultiplexing

Every decoded unit comes through here: HTTP requests are routed by their path, text frames are
read as requests and dispatched. Nothing that a client sends can make this fail; misses and
failures of handlers become responses.
-/

namespace WsGateway

namespace Gateway

/-! ## HTTP requests -/

def declaredLength? (r : Http.Request) : Option UInt64 :=
  (r.headers.text? "content-length").bind fun v => Text.uint64? (Text.trim v)

/-- Where a request goes, before any policy on origins. -/
inductive Destination where
  /-- It is refused with a status and a message. -/
  | refused (status : Http.Status) (message : String)
  /-- It goes to the handler of a path segment. -/
  | handler (route : String) (h : HttpHandler)

def destination (g : Gateway) (r : Http.Request) : Destination :=
  let http := g.config.http
  if r.isChunked && !http.chunkingEnabled then .refused .badRequest "HTTP Chunking Not Enabled"
  else if (declaredLength? r).any (· > http.maxChunkBytes) then
    .refused .payloadTooLarge
      ("Request body exceeds " ++ toString http.maxChunkBytes.toNat ++ " bytes")
  else
    match Http.routeKey? r.path with
    | none => .refused .notFound "No handler found for [/]"
    | some key =>
      match g.routes.lookup key with
      | none => .refused .notFound ("No handler found for [" ++ key ++ "]")
      | some h => .handler key h

def countRoute (route : String) (b : Board) : Board :=
  b.measure fun m => { m with httpRequests := m.httpRequests.inc [("route", route)] }

def runHandler (h : HttpHandler) (ex : Exchange) (b : Board) : Http.Response × Board :=
  match h ex b with
  | (.ok response, b) => (response, b)
  | (.error f, b) =>
    let b := b.countError.measure fun m =>
      { m with handlerErrors := m.handlerErrors.inc [("side", "http")] }
    (Http.failure .internalServerError f.message false, b)

def route (g : Gateway) (r : Http.Request) (peer : Net.Address) (b : Board) :
    Http.Response × Board :=
  match g.destination r with
  | .refused status message => (Http.failure status message true, countRoute "-" b)
  | .handler key h =>
    let limit := if r.isChunked then some g.config.http.maxChunkBytes else none
    runHandler h ⟨r, peer, key, limit⟩ (countRoute key b)

/-- A request is answered: by the policy on origins if it is a preflight, else by its route. -/
def onHttp (g : Gateway) (r : Http.Request) (peer : Net.Address) (b : Board) :
    Http.Response × Board :=
  let b := { b with counters := b.counters.httpRequest }
  match g.cors.preflight r with
  | some response => (response, b)
  | none =>
    let (response, b) := g.route r peer b
    (g.cors.decorate (r.headers.first? "origin") response, b)

/-! ## Frames -/

/-- What became of a frame. -/
inductive Demuxed where
  | dispatched (outcome : DispatchOutcome)
  /-- The frame is not for the gateway. -/
  | passthrough (f : Frame)
  deriving DecidableEq, Repr

/-- A text that is no request is counted and answered with an error. -/
def onMalformed (k : Link) (bad : RequestFailure) (b : Board) : Demuxed × Board :=
  let b := b.countError.measure fun m => { m with decodeErrors := m.decodeErrors.inc [] }
  let message := bad.error.message
  (.dispatched (.rejected message),
    b.setLinks (sendFailure k bad.rerid bad.op message b.links))

def countOutcome (outcome : DispatchOutcome) (b : Board) : Board :=
  match outcome with
  | .unknownOp => b.measure fun m => { m with unknownOps := m.unknownOps.inc [] }
  | .failed _ =>
    b.countError.measure fun m =>
      { m with handlerErrors := m.handlerErrors.inc [("side", "ws")] }
  | .handled | .rejected _ => b

/-- A request is counted and dispatched; it takes `elapsed` nanoseconds. -/
def onRequest (g : Gateway) (elapsed : Nat) (k : Link) (r : Request) (b : Board) :
    Demuxed × Board :=
  let labels := [("op", r.op)]
  let b := { b with counters := b.counters.wsRequest }
  let b := b.measure fun m => { m with wsRequests := m.wsRequests.inc labels }
  let (outcome, s) := b.switchboard.dispatch g.operations k r
  let b := { b with switchboard := s }
  let b := b.measure fun m =>
    { m with dispatchDuration := m.dispatchDuration.observe labels elapsed }
  (.dispatched outcome, countOutcome outcome b)

/-- A frame of a connection is handled: a text is read as a request, other frames are handed
back. -/
def onFrame (g : Gateway) (elapsed : Nat) (k : Link) (f : Frame) (b : Board) : Demuxed × Board :=
  match f with
  | .text text =>
    match Request.parse text with
    | .error bad => onMalformed k bad b
    | .ok r => g.onRequest elapsed k r b
  | f => (.passthrough f, b)

end Gateway

end WsGateway
