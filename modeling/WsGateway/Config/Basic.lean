import WsGateway.Error
import WsGateway.Net.Address
import WsGateway.Text.Quoted

/-!
# Configuration

The settings of a gateway, with their defaults and the limits that an accepted configuration
keeps.
-/

namespace WsGateway

open Net (Address)

/-- Where the gateway listens and how it treats connections. -/
structure GatewaySection where
  listen : String := "0.0.0.0:8134"
  bindTimeoutMs : UInt64 := 5000
  handshakeTimeoutMs : UInt64 := 10000
  /-- How many frames may wait for one connection. -/
  outboundQueue : UInt64 := 1024
  deriving DecidableEq, Repr

/-- The origins that other sites may call from; none of them turns the treatment of origins
off. -/
structure CorsSection where
  allowOrigins : List String := []
  deriving DecidableEq, Repr

structure HttpSection where
  chunkingEnabled : Bool := true
  /-- The greatest size of a request body. -/
  maxChunkBytes : UInt64 := 1048576
  cors : CorsSection := {}
  deriving DecidableEq, Repr

structure WsSection where
  /-- The path segment that asks for an upgrade. -/
  path : String := "ws"
  /-- Fragments may add up to more than one frame. -/
  aggregationEnabled : Bool := true
  maxFrameBytes : UInt64 := 1048576
  maxMessageBytes : UInt64 := 16777216
  deriving DecidableEq, Repr

structure RuntimeSection where
  /-- Zero stands for one thread a core. -/
  workerThreads : UInt64 := 0
  maxBlockingThreads : UInt64 := 512
  threadKeepAliveMs : UInt64 := 60000
  deriving DecidableEq, Repr

structure LoggingSection where
  level : String := "info"
  frames : Bool := false
  deriving DecidableEq, Repr

structure ServicesSection where
  heartbeatIntervalMs : UInt64 := 5000
  deriving DecidableEq, Repr

structure Config where
  version : UInt32 := 1
  gateway : GatewaySection := {}
  http : HttpSection := {}
  ws : WsSection := {}
  runtime : RuntimeSection := {}
  logging : LoggingSection := {}
  services : ServicesSection := {}
  deriving DecidableEq, Repr

def require (condition : Bool) (message : String) : Except Error Unit :=
  if condition then .ok () else .error (.config message)

namespace GatewaySection

def address (s : GatewaySection) : Except Error Address :=
  match Address.parse? s.listen with
  | some a => .ok a
  | none =>
    .error (.config ("gateway.listen must be a valid SocketAddr: " ++ Address.syntaxMessage))

def validate (s : GatewaySection) : Except Error Unit := do
  let _ ← s.address
  require (100 ≤ s.bindTimeoutMs && s.bindTimeoutMs ≤ 60000)
    "gateway.bind_timeout_ms must be between 100 and 60000"
  require (1000 ≤ s.handshakeTimeoutMs && s.handshakeTimeoutMs ≤ 120000)
    "gateway.handshake_timeout_ms must be between 1000 and 120000"
  require (1 ≤ s.outboundQueue && s.outboundQueue ≤ 65536)
    "gateway.outbound_queue must be between 1 and 65536"

end GatewaySection

/-- An origin without the slash that a path would begin with. -/
def isOrigin (origin : String) : Bool :=
  !origin.isEmpty && origin.toList.getLast? != some '/'

namespace HttpSection

def validate (s : HttpSection) : Except Error Unit := do
  require (s.maxChunkBytes != 0) "http.max_chunk_bytes must be > 0"
  match s.cors.allowOrigins.find? (!isOrigin ·) with
  | some origin =>
    .error (.config ("http.cors.allow_origins: invalid origin " ++ Text.quoted origin))
  | none => pure ()

end HttpSection

namespace WsSection

def validate (s : WsSection) : Except Error Unit := do
  require (!s.path.isEmpty && !s.path.toList.contains '/')
    "ws.path must be a single non-empty path segment"
  require (s.maxFrameBytes != 0) "ws.max_frame_bytes must be > 0"
  require (s.maxFrameBytes ≤ s.maxMessageBytes)
    "ws.max_message_bytes must be >= ws.max_frame_bytes"

end WsSection

namespace RuntimeSection

def validate (s : RuntimeSection) : Except Error Unit := do
  require (s.workerThreads ≤ 1024) "runtime.worker_threads must be <= 1024"
  require (s.maxBlockingThreads != 0) "runtime.max_blocking_threads must be > 0"

end RuntimeSection

namespace ServicesSection

def validate (s : ServicesSection) : Except Error Unit :=
  require (100 ≤ s.heartbeatIntervalMs && s.heartbeatIntervalMs ≤ 3600000)
    "services.heartbeat_interval_ms must be between 100 and 3600000"

end ServicesSection

namespace Config

/-- The limits that an accepted configuration keeps; the first one that is broken is
reported. -/
def validate (c : Config) : Except Error Unit := do
  if c.version != 1 then .error .unsupportedVersion
  else
    c.gateway.validate
    c.http.validate
    c.ws.validate
    c.runtime.validate
    c.services.validate

end Config

end WsGateway
