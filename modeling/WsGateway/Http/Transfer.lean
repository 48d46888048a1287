import WsGateway.Http.Message
import WsGateway.Text.Digits

/-!
# Transfer

How messages travel on a connection: which octets that follow a request are its body, and what
is added to a response so that the client knows where its body ends and whether the connection
stays open.
-/

namespace WsGateway.Http

open Text (Octets)

/-- The first line of a text with line ends, and what follows it. -/
def line? : Octets → Option (Octets × Octets)
  | [] => none
  | 13 :: 10 :: rest => some ([], rest)
  | b :: rest => (line? rest).map fun (l, after) => (b :: l, after)

/-- The number that hexadecimal digits at the beginning stand for. -/
def hexNumber : Nat → Octets → Nat
  | n, [] => n
  | n, b :: rest =>
    match Text.hexValue? (Char.ofNat b.toNat) with
    | some d => hexNumber (16 * n + d) rest
    | none => n

/-- The data of at most `count` chunks, each of them after a line with its size. -/
def chunks : Nat → Octets → Octets
  | 0, _ => []
  | count + 1, s =>
    match line? s with
    | none => []
    | some (size, rest) =>
      match hexNumber 0 size with
      | 0 => []
      | n => rest.take n ++ chunks count (rest.drop (n + 2))

namespace Request

/-- The request with the octets that follow it cut to its body: chunks, or as many as its length
says, or none. -/
def received (r : Request) : Request :=
  let body :=
    if r.isChunked then chunks r.body.length r.body
    else
      match (r.headers.text? "content-length").bind fun v => Text.uint64? (Text.trim v) with
      | some n => r.body.take n.toNat
      | none => []
  { r with body := body }

end Request

/-- A response on a connection, and whether the connection ends after it. -/
structure Transfer where
  response : Response
  closes : Bool

namespace Response

/-- The body has no length to be told: there never is one. -/
def isBodiless (r : Response) : Bool := r.status == .switchingProtocols || r.status == .noContent

/-- The response with the length of its body. -/
def withLength (r : Response) : Response :=
  if r.isBodiless || r.headers.contains "content-length" then r
  else
    { r with
      headers := r.headers.append "content-length" (headerValue (toString r.body.length)) }

/-- The response to a request as it is sent. The connection ends if either side says so, and then
the response says it. -/
def transfer (r : Response) (request : Request) : Transfer :=
  let refused := r.headers.hasToken "connection" "close"
  let asked := request.headers.hasToken "connection" "close"
  let r := r.withLength
  let r :=
    if asked && !refused then
      { r with headers := r.headers.append "connection" (headerValue "close") }
    else r
  let r := if request.method = "HEAD" then { r with body := [] } else r
  ⟨r, refused || asked⟩

end Response

end WsGateway.Http
