import WsGateway.Config.Basic
import WsGateway.Yaml.Decoder

/-!
# The schema of a configuration file

The sections and fields that a configuration document may have. All but the version may be
missing; nothing else may be there.
-/

namespace WsGateway

open Yaml (Decoder KeyDecoder field record)

/-- A size, as large as a word of the machine. -/
def sizeDecoder : Decoder UInt64 := Decoder.uint64 "usize"

def numberDecoder : Decoder UInt64 := Decoder.uint64 "u64"

def GatewaySection.fields : List (KeyDecoder GatewaySection) := [
  field "listen" Decoder.string fun s v => { s with listen := v },
  field "bind_timeout_ms" numberDecoder fun s v => { s with bindTimeoutMs := v },
  field "handshake_timeout_ms" numberDecoder fun s v => { s with handshakeTimeoutMs := v },
  field "outbound_queue" sizeDecoder fun s v => { s with outboundQueue := v }
]

def CorsSection.fields : List (KeyDecoder CorsSection) := [
  field "allow_origins" (Decoder.list Decoder.string) fun s v => { s with allowOrigins := v }
]

def HttpSection.fields : List (KeyDecoder HttpSection) := [
  field "chunking_enabled" Decoder.bool fun s v => { s with chunkingEnabled := v },
  field "max_chunk_bytes" sizeDecoder fun s v => { s with maxChunkBytes := v },
  field "cors" (record "CorsSection" CorsSection.fields {}) fun s v => { s with cors := v }
]

def WsSection.fields : List (KeyDecoder WsSection) := [
  field "path" Decoder.string fun s v => { s with path := v },
  field "aggregation_enabled" Decoder.bool fun s v => { s with aggregationEnabled := v },
  field "max_frame_bytes" sizeDecoder fun s v => { s with maxFrameBytes := v },
  field "max_message_bytes" sizeDecoder fun s v => { s with maxMessageBytes := v }
]

def RuntimeSection.fields : List (KeyDecoder RuntimeSection) := [
  field "worker_threads" sizeDecoder fun s v => { s with workerThreads := v },
  field "max_blocking_threads" sizeDecoder fun s v => { s with maxBlockingThreads := v },
  field "thread_keep_alive_ms" numberDecoder fun s v => { s with threadKeepAliveMs := v }
]

def LoggingSection.fields : List (KeyDecoder LoggingSection) := [
  field "level" Decoder.string fun s v => { s with level := v },
  field "frames" Decoder.bool fun s v => { s with frames := v }
]

def ServicesSection.fields : List (KeyDecoder ServicesSection) := [
  field "heartbeat_interval_ms" numberDecoder fun s v => { s with heartbeatIntervalMs := v }
]

namespace Config

def fields : List (KeyDecoder Config) := [
  field "version" Decoder.uint32 fun c v => { c with version := v },
  field "gateway" (record "GatewaySection" GatewaySection.fields {})
    fun c v => { c with gateway := v },
  field "http" (record "HttpSection" HttpSection.fields {}) fun c v => { c with http := v },
  field "ws" (record "WsSection" WsSection.fields {}) fun c v => { c with ws := v },
  field "runtime" (record "RuntimeSection" RuntimeSection.fields {})
    fun c v => { c with runtime := v },
  field "logging" (record "LoggingSection" LoggingSection.fields {})
    fun c v => { c with logging := v },
  field "services" (record "ServicesSection" ServicesSection.fields {})
    fun c v => { c with services := v }
]

/-- A configuration; the version must be given. -/
def decoder : Decoder Config := fun d place node => do
  let (c, seen) ← Yaml.readRecord "GatewayConfig" fields {} d place node
  if seen.contains "version" then pure c
  else .error (.data place "missing field `version`")

/-- The configuration that a YAML text describes, without a check of its limits. -/
def ofYaml (text : String) : Except Error Config :=
  match Yaml.decode decoder text with
  | .ok c => .ok c
  | .error trouble =>
    match trouble.text? with
    | some text => .error (.config ("invalid yaml: " ++ text))
    | none => .error (.config "invalid yaml")

end Config

end WsGateway
