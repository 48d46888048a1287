import WsGateway.Error
import WsGateway.Text.Blank
import WsGateway.Text.Octets
import WsGateway.Text.Split

/-!
# HTTP messages

Requests and responses as the gateway sees them. Header names are in lower case; header values
are octets, which are a text only if all of them are visible.
-/

namespace WsGateway.Http

open Text (Octets)

/-- Header fields in order; a name may occur several times. -/
abbrev Headers := List (String × Octets)

/-- The text of a header value, if all its octets are visible characters of ASCII, spaces or
tabs. -/
def headerText? (value : Octets) : Option String :=
  if value.all fun b => (32 ≤ b && b < 127) || b == 9 then
    some (String.ofList (value.map fun b => Char.ofNat b.toNat))
  else none

namespace Headers

def all (h : Headers) (name : String) : List Octets :=
  (h.filter (·.1 == name)).map Prod.snd

def first? (h : Headers) (name : String) : Option Octets := (h.all name).head?

/-- The first value of a name as a text. -/
def text? (h : Headers) (name : String) : Option String := (h.first? name).bind headerText?

def contains (h : Headers) (name : String) : Bool := (h.first? name).isSome

def set (h : Headers) (name : String) (value : Octets) : Headers :=
  h.filter (·.1 != name) ++ [(name, value)]

def append (h : Headers) (name : String) (value : Octets) : Headers := h ++ [(name, value)]

/-- The items between commas in all values of a name that are texts, trimmed. -/
def tokens (h : Headers) (name : String) : List String :=
  ((h.all name).filterMap headerText?).flatMap fun v => (Text.split ',' v).map Text.trim

/-- One of the items between commas is the word, in any case. -/
def hasToken (h : Headers) (name word : String) : Bool :=
  (h.tokens name).any (Text.sameLetters · word)

end Headers

inductive Status where
  | switchingProtocols
  | ok
  | noContent
  | badRequest
  | forbidden
  | notFound
  | payloadTooLarge
  | upgradeRequired
  | internalServerError
  | serviceUnavailable
  deriving DecidableEq, Repr

namespace Status

def code : Status → Nat
  | .switchingProtocols => 101
  | .ok => 200
  | .noContent => 204
  | .badRequest => 400
  | .forbidden => 403
  | .notFound => 404
  | .payloadTooLarge => 413
  | .upgradeRequired => 426
  | .internalServerError => 500
  | .serviceUnavailable => 503

def reason : Status → String
  | .switchingProtocols => "Switching Protocols"
  | .ok => "OK"
  | .noContent => "No Content"
  | .badRequest => "Bad Request"
  | .forbidden => "Forbidden"
  | .notFound => "Not Found"
  | .payloadTooLarge => "Payload Too Large"
  | .upgradeRequired => "Upgrade Required"
  | .internalServerError => "Internal Server Error"
  | .serviceUnavailable => "Service Unavailable"

def text (s : Status) : String := toString s.code ++ " " ++ s.reason

end Status

structure Request where
  method : String
  target : String
  headers : Headers
  body : Octets
  /-- The connection can be handed over after a response that switches protocols. -/
  upgradable : Bool := false

structure Response where
  status : Status
  headers : Headers
  body : Octets
  deriving DecidableEq, Repr

def headerValue (s : String) : Octets := Text.octets s

def textResponse (status : Status) (contentType text : String) : Response :=
  ⟨status, [("content-type", headerValue contentType)], Text.octets text⟩

def plainText : String := "text/plain; charset=utf-8"

/-- The page of a failure. With `close` the connection ends after it. -/
def failure (status : Status) (message : String) (close : Bool) : Response :=
  let page := textResponse status "text/plain; charset=UTF-8"
    ("Failure: " ++ status.text ++ "\r\n" ++ message ++ "\r\n")
  if close then { page with headers := page.headers.set "connection" (headerValue "close") }
  else page

namespace Request

def isSchemeChar (c : Char) : Bool := c.isAlphanum || c == '+' || c == '-' || c == '.'

/-- What follows a scheme and two slashes, if the target begins with them. -/
def afterScheme? (target : List Char) : Option (List Char) :=
  match target.dropWhile isSchemeChar with
  | ':' :: '/' :: '/' :: rest => some rest
  | _ => none

/-- The path of a target with a query or a fragment behind it: the target itself if it begins
with a slash, and what follows the host of an absolute one. A host alone has no path. -/
def pathAndQuery (target : List Char) : List Char :=
  if target.head? = some '/' ∨ target = ['*'] then target
  else
    match afterScheme? target with
    | none => []
    | some rest =>
      match rest.dropWhile fun c => c ≠ '/' ∧ c ≠ '?' ∧ c ≠ '#' with
      | '/' :: more => '/' :: more
      | more => '/' :: more

/-- The path of a request: its target up to a query or a fragment. -/
def path (r : Request) : String :=
  String.ofList ((pathAndQuery r.target.toList).takeWhile fun c => c ≠ '?' ∧ c ≠ '#')

def isChunked (r : Request) : Bool := r.headers.hasToken "transfer-encoding" "chunked"

end Request

end WsGateway.Http
