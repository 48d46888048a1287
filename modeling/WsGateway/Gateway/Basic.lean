import WsGateway.Gateway.Board
import WsGateway.Http.Cors
import WsGateway.Http.Routes
import WsGateway.Operation.Builtin

/-!
# Gateways

What a gateway is made of: its configuration, its policy on origins, handlers of paths and
handlers of operations. Nothing of this changes while it runs.
-/

namespace WsGateway

/-- One routed request: where it came from, and the path segment that it was routed by. -/
structure Exchange where
  request : Http.Request
  peer : Net.Address
  route : String
  /-- The greatest body that can be read; without it there is no limit. -/
  bodyLimit : Option UInt64

namespace Exchange

def body (ex : Exchange) : Except String Text.Octets :=
  match ex.bodyLimit with
  | some limit =>
    if ex.request.body.length > limit.toNat then .error "length limit exceeded"
    else .ok ex.request.body
  | none => .ok ex.request.body

end Exchange

/-- What a handler of a path does: changes to the board, and a response or a failure. -/
abbrev HttpAction := ExceptT Failure (StateM Board)

abbrev HttpHandler := Exchange → HttpAction Http.Response

namespace HttpAction

def board : HttpAction Board := fun b => (.ok b, b)

def update (f : Board → Board) : HttpAction Unit := fun b => (.ok (), f b)

def fail {α : Type} (e : Error) : HttpAction α := throw (.error e)

def abort {α : Type} (text : String) : HttpAction α := throw (.abort text)

end HttpAction

structure Gateway where
  config : Config
  cors : Http.CorsPolicy
  routes : Http.Routes HttpHandler
  operations : Operations

namespace Gateway

/-- A gateway without handlers. -/
def ofConfig (config : Config) : Gateway :=
  ⟨config, Http.corsPolicy config.http.cors, .empty, .empty⟩

def withHttp (g : Gateway) (segment : String) (handler : HttpHandler) : Except Error Gateway := do
  let routes ← g.routes.register segment handler
  pure { g with routes := routes }

def withOp (g : Gateway) (name : String) (handler : OpHandler) : Except Error Gateway := do
  let operations ← g.operations.register name handler
  pure { g with operations := operations }

def withCors (g : Gateway) (policy : Http.CorsPolicy) : Gateway := { g with cors := policy }

def withAllHttp (g : Gateway) (handlers : List (String × HttpHandler)) : Except Error Gateway :=
  handlers.foldlM (fun g (segment, handler) => g.withHttp segment handler) g

def withAllOps (g : Gateway) (handlers : List (String × OpHandler)) : Except Error Gateway :=
  handlers.foldlM (fun g (name, handler) => g.withOp name handler) g

end Gateway

end WsGateway
