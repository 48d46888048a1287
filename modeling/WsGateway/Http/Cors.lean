import WsGateway.Config.Basic
import WsGateway.Http.Message

/-!
# Origins

What a policy does with the origin of a request: it may answer a preflight itself, and it may
add headers to the response of a routed request.
-/

namespace WsGateway.Http

open Text (Octets)

structure CorsPolicy where
  /-- The answer to a preflight; without one the request is routed. -/
  preflight : Request → Option Response
  /-- The response to a request with the origin. -/
  decorate : Option Octets → Response → Response

namespace CorsPolicy

/-- The policy that leaves requests and responses alone. -/
def none : CorsPolicy := ⟨fun _ => Option.none, fun _ r => r⟩

end CorsPolicy

/-- A list of allowed origins; a star in it allows every origin. -/
structure OriginList where
  origins : List String
  deriving DecidableEq, Repr

namespace OriginList

def allows (l : OriginList) (origin : String) : Bool :=
  l.origins.contains "*" || l.origins.contains origin

/-- The header value is a text that is an allowed origin. -/
def allowsValue (l : OriginList) (origin : Octets) : Bool :=
  (headerText? origin).any l.allows

/-- The answer to a preflight: a request for the options of another method that names its
origin. -/
def preflight (l : OriginList) (r : Request) : Option Response :=
  if r.method ≠ "OPTIONS" || !r.headers.contains "access-control-request-method" then none
  else
    match r.headers.first? "origin" with
    | none => none
    | some origin =>
      if !l.allowsValue origin then some (failure .forbidden "Origin not allowed" false)
      else
        let headers : Headers :=
          [("access-control-allow-origin", origin),
            ("access-control-allow-methods", headerValue "GET, POST, OPTIONS"),
            ("access-control-max-age", headerValue "600"),
            ("vary", headerValue "Origin")]
        let asked := match r.headers.first? "access-control-request-headers" with
          | some names => [("access-control-allow-headers", names)]
          | none => []
        some ⟨.noContent, headers ++ asked, []⟩

/-- The response with the origin named in it, if that is allowed. -/
def decorate (l : OriginList) (origin : Option Octets) (r : Response) : Response :=
  match origin with
  | none => r
  | some value =>
    if l.allowsValue value then
      { r with
        headers :=
          (r.headers.set "access-control-allow-origin" value).append "vary" (headerValue "Origin") }
    else r

def policy (l : OriginList) : CorsPolicy := ⟨l.preflight, l.decorate⟩

end OriginList

/-- The policy of a configuration; without origins there is none. -/
def corsPolicy (s : CorsSection) : CorsPolicy :=
  if s.allowOrigins.isEmpty then .none else (OriginList.mk s.allowOrigins).policy

end WsGateway.Http
