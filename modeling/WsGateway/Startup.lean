import WsGateway.Config.Load
import WsGateway.Gateway.Endpoints

/-!
# Start-up

What has to hold before a gateway serves: its configuration loads, no two of its paths clash, and
its address is free. The first of these that fails decides with which status the process ends.
-/

namespace WsGateway

/-- Why a gateway does not start. -/
inductive Refusal where
  /-- The configuration at a path does not load. -/
  | config (path : String) (e : Error)
  /-- The handlers clash. -/
  | setup (e : Error)
  /-- The address cannot be listened on. -/
  | bind (a : Net.Address)
  deriving DecidableEq, Repr

namespace Refusal

def exitCode : Refusal → UInt8
  | .config _ _ => 2
  | .setup _ => 2
  | .bind _ => 3

/-- What the operator is told before logging has started. -/
def report : Refusal → Option String
  | .config path e =>
    some ("metricws-gateway: config load failed (" ++ path ++ "): " ++ e.message ++ "\n")
  | .setup _ => none
  | .bind _ => none

end Refusal

namespace Startup

def configPath (environment : Environment) : String :=
  (environment Config.pathVariable).getD Config.defaultPath

/-- The gateway and the address that it listens on. `content` is what stands at a path, and
`isFree` tells which addresses can be listened on. -/
def start (environment : Environment) (content : String → FileContent)
    (isFree : Net.Address → Bool) : Except Refusal (Gateway × Net.Address) := do
  let path := configPath environment
  let config ← (Config.loadLayered path (content path) environment).mapError (.config path)
  let address ← config.gateway.address.mapError .setup
  let gateway ← (Gateway.builtin config).mapError .setup
  if isFree address then pure (gateway, address) else throw (.bind address)

end Startup

end WsGateway
