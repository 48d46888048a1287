import WsGateway.Gateway.Basic

/-!
# Built-in endpoints

The handlers of paths that every gateway has: liveness, readiness, metrics, and the upgrade to a
web socket.
-/

namespace WsGateway

namespace Endpoint

def healthz : HttpHandler := fun _ =>
  pure (Http.textResponse .ok Http.plainText "ok")

/-- The gateway takes new sessions. -/
def readyz : HttpHandler := fun _ => do
  let b ← HttpAction.board
  if b.isDraining then pure (Http.textResponse .serviceUnavailable Http.plainText "draining")
  else pure (Http.textResponse .ok Http.plainText "ready")

def metrics : HttpHandler := fun _ => do
  let b ← HttpAction.board
  pure (Http.textResponse .ok "text/plain; version=0.0.4; charset=utf-8" b.metricsText)

/-- An upgrade request is answered, unless the gateway is draining; the stream of an accepted one
is awaited. -/
def upgrade : HttpHandler := fun ex => do
  let b ← HttpAction.board
  if b.isDraining then
    HttpAction.update (·.countHandshake "draining")
    pure (Http.failure .serviceUnavailable "Server is draining" true)
  else
    match Handshake.start.negotiate ex.request with
    | (.rejected response, _) =>
      HttpAction.update (·.countHandshake "rejected")
      pure response
    | (.switching response, h) =>
      HttpAction.update fun b => (b.countHandshake "switching").await ex.peer h
      pure response

def operational : List (String × HttpHandler) :=
  [("healthz", healthz), ("readyz", readyz), ("metrics", metrics)]

end Endpoint

namespace Gateway

/-- The gateway with the upgrade path, the operational endpoints and the built-in operations. A
path that is taken twice is an error. -/
def withBuiltins (g : Gateway) : Except Error Gateway := do
  let g ← g.withHttp g.config.ws.path Endpoint.upgrade
  let g ← g.withAllHttp Endpoint.operational
  g.withAllOps builtinOperations

/-- The gateway of a configuration with everything that is built in. -/
def builtin (config : Config) : Except Error Gateway := (ofConfig config).withBuiltins

end Gateway

end WsGateway
