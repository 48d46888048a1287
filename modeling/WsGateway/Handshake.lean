import WsGateway.Crypto.Sha1
import WsGateway.Frame
import WsGateway.Http.Message
import WsGateway.Text.Base64

/-!
# The upgrade handshake

One negotiation for each connection: it starts, waits for the upgraded stream after the
switching response, and is upgraded or rejected. Once upgraded it says what each frame is for.
-/

namespace WsGateway

open Text (Octets)

/-- How far a handshake has come. -/
inductive HandshakeState where
  | init
  | handshaking
  | upgraded
  | rejected
  deriving DecidableEq, Repr

def HandshakeState.name : HandshakeState → String
  | .init => "init"
  | .handshaking => "handshaking"
  | .upgraded => "upgraded"
  | .rejected => "rejected"

/-- What a session does with one frame. -/
inductive FrameAction where
  /-- Hand it to the demultiplexer. -/
  | forward
  /-- Answer with a pong that carries the payload. -/
  | pong (payload : Octets)
  | ignore
  /-- End the session. -/
  | close
  deriving DecidableEq, Repr

/-- The answer to an upgrade request. -/
inductive Negotiation where
  | switching (response : Http.Response)
  | rejected (response : Http.Response)
  deriving DecidableEq, Repr

def Negotiation.response : Negotiation → Http.Response
  | .switching r => r
  | .rejected r => r

def Negotiation.describe (n : Negotiation) : String :=
  let outcome := match n with
    | .switching _ => "Switching"
    | .rejected _ => "Rejected"
  outcome ++ "(" ++ toString n.response.status.code ++ ")"

/-- The one negotiation of a connection. -/
structure Handshake where
  state : HandshakeState
  deriving DecidableEq, Repr

namespace Handshake

/-- The identifier that the protocol appends to every key. -/
def guid : String := "258EAFA5-E914-47DA-95CA-C5AB0DC85B11"

def version : String := "13"

def start : Handshake := ⟨.init⟩

/-- The answer to a client's key. -/
def acceptKey (key : Octets) : String :=
  String.ofList (Text.toBase64 (Crypto.sha1 (key ++ Text.octets guid)))

/-- The trimmed key is the text of sixteen octets. -/
def isKey (key : String) : Bool :=
  (Text.ofBase64? key.toList).any (·.length == 16)

/-- The client's key, or what is wrong with the request other than its version. -/
def clientKey (r : Http.Request) : Except String String :=
  if r.method ≠ "GET" then .error "WebSocket upgrade requires GET"
  else if !r.headers.hasToken "connection" "upgrade" then .error "Missing Connection: upgrade"
  else if !(r.headers.text? "upgrade").any fun v => Text.sameLetters (Text.trim v) "websocket" then
    .error "Missing Upgrade: websocket"
  else
    match (r.headers.text? "sec-websocket-key").map Text.trim with
    | none => .error "Missing Sec-WebSocket-Key"
    | some key => if isKey key then .ok key else .error "Invalid Sec-WebSocket-Key"

def hasVersion (r : Http.Request) : Bool :=
  (r.headers.text? "sec-websocket-version").map Text.trim == some version

def refusal (message : String) : Negotiation :=
  .rejected (Http.failure .badRequest message true)

/-- The refusal of a version, which names the supported one. -/
def versionRefusal : Negotiation :=
  let page := Http.failure .upgradeRequired "Unsupported WebSocket version" true
  .rejected
    { page with
      headers := page.headers.set "sec-websocket-version" (Http.headerValue version) }

def switchingResponse (key : String) : Http.Response :=
  ⟨.switchingProtocols,
    [("connection", Http.headerValue "upgrade"), ("upgrade", Http.headerValue "websocket"),
      ("sec-websocket-accept", Http.headerValue (acceptKey (Text.octets key)))], []⟩

/-- The answer to an upgrade request, and the handshake after it. Only the first request can be
accepted. -/
def negotiate (h : Handshake) (r : Http.Request) : Negotiation × Handshake :=
  if h.state ≠ .init then (refusal "Handshake already attempted", ⟨.rejected⟩)
  else
    match clientKey r with
    | .error message => (refusal message, ⟨.rejected⟩)
    | .ok key =>
      if !hasVersion r then (versionRefusal, ⟨.rejected⟩)
      else if !r.upgradable then (refusal "Connection cannot be upgraded", ⟨.rejected⟩)
      else (.switching (switchingResponse key), ⟨.handshaking⟩)

def onUpgraded (h : Handshake) : Handshake :=
  if h.state = .handshaking then ⟨.upgraded⟩ else h

def onFailed (_ : Handshake) : Handshake := ⟨.rejected⟩

/-- What a frame is for; data frames other than texts are refused one by one. -/
def onFrame (h : Handshake) (f : Frame) : Except Error FrameAction :=
  if h.state ≠ .upgraded then .error (.unsupported "frame before upgrade completed")
  else
    match f with
    | .close _ => .ok .close
    | .ping payload => .ok (.pong payload)
    | .pong _ => .ok .ignore
    | .text _ => .ok .forward
    | .binary _ | .raw _ =>
      .error (.unsupported (f.kind ++ " frames are not supported"))

end Handshake

end WsGateway
