import WsGateway.Config.Basic
import WsGateway.Text.Blank
import WsGateway.Text.Digits
import WsGateway.Text.Split

/-!
# Overrides from the environment

The table of the settings that environment variables override. Each entry knows how to write
the current value and how to read a new one; reading what was written changes nothing.
-/

namespace WsGateway

/-- An environment: the value of each variable that is set. -/
abbrev Environment := String → Option String

/-- A setting that can be overridden: its name, its variable, its default as written, and how it
is written and read. -/
structure Setting where
  key : String
  envVar : String
  default : String
  current : Config → String
  assign : String → Config → Except String Config

namespace Setting

def mismatch (expected raw : String) : String :=
  "expected " ++ expected ++ ", got " ++ Text.quoted raw

def readNumber (raw : String) : Except String UInt64 :=
  match Text.uint64? raw with
  | some n => .ok n
  | none => .error (mismatch "a number" raw)

/-- The words for truth values, in any case. -/
def readFlag (raw : String) : Except String Bool :=
  let word := raw.toLower
  if word = "1" || word = "true" || word = "yes" || word = "on" then .ok true
  else if word = "0" || word = "false" || word = "no" || word = "off" then .ok false
  else .error (mismatch "a boolean" raw)

/-- The items of a list with commas between them, trimmed, without the empty ones. -/
def readList (raw : String) : List String :=
  ((Text.split ',' raw).map Text.trim).filter (!·.isEmpty)

def flagText (b : Bool) : String := if b then "true" else "false"

def numberText (n : UInt64) : String := toString n.toNat

def text (key envVar : String) (get : Config → String) (set : Config → String → Config) :
    Setting :=
  ⟨key, envVar, get {}, get, fun raw c => .ok (set c raw)⟩

def number (key envVar : String) (get : Config → UInt64) (set : Config → UInt64 → Config) :
    Setting :=
  ⟨key, envVar, numberText (get {}), fun c => numberText (get c), fun raw c => do
    let n ← readNumber raw
    pure (set c n)⟩

def flag (key envVar : String) (get : Config → Bool) (set : Config → Bool → Config) : Setting :=
  ⟨key, envVar, flagText (get {}), fun c => flagText (get c), fun raw c => do
    let b ← readFlag raw
    pure (set c b)⟩

def texts (key envVar : String) (get : Config → List String)
    (set : Config → List String → Config) : Setting :=
  ⟨key, envVar, String.intercalate "," (get {}), fun c => String.intercalate "," (get c),
    fun raw c => .ok (set c (readList raw))⟩

/-- The settings that can be overridden, in the order in which they are applied. -/
def table : List Setting := [
  text "gateway.listen" "MWS_HTTP_LISTEN" (·.gateway.listen)
    fun c v => { c with gateway.listen := v },
  number "gateway.bind_timeout_ms" "MWS_BIND_TIMEOUT_MS" (·.gateway.bindTimeoutMs)
    fun c v => { c with gateway.bindTimeoutMs := v },
  number "gateway.handshake_timeout_ms" "MWS_HANDSHAKE_TIMEOUT_MS" (·.gateway.handshakeTimeoutMs)
    fun c v => { c with gateway.handshakeTimeoutMs := v },
  number "gateway.outbound_queue" "MWS_OUTBOUND_QUEUE" (·.gateway.outboundQueue)
    fun c v => { c with gateway.outboundQueue := v },
  flag "http.chunking_enabled" "MWS_HTTP_CHUNKING" (·.http.chunkingEnabled)
    fun c v => { c with http.chunkingEnabled := v },
  number "http.max_chunk_bytes" "MWS_HTTP_MAX_CHUNK_BYTES" (·.http.maxChunkBytes)
    fun c v => { c with http.maxChunkBytes := v },
  texts "http.cors.allow_origins" "MWS_CORS_ALLOW_ORIGINS" (·.http.cors.allowOrigins)
    fun c v => { c with http.cors.allowOrigins := v },
  text "ws.path" "MWS_WS_PATH" (·.ws.path)
    fun c v => { c with ws.path := v },
  flag "ws.aggregation_enabled" "MWS_WS_AGGREGATION" (·.ws.aggregationEnabled)
    fun c v => { c with ws.aggregationEnabled := v },
  number "ws.max_frame_bytes" "MWS_WS_MAX_FRAME_BYTES" (·.ws.maxFrameBytes)
    fun c v => { c with ws.maxFrameBytes := v },
  number "ws.max_message_bytes" "MWS_WS_MAX_MESSAGE_BYTES" (·.ws.maxMessageBytes)
    fun c v => { c with ws.maxMessageBytes := v },
  number "runtime.worker_threads" "MWS_WORKER_THREADS" (·.runtime.workerThreads)
    fun c v => { c with runtime.workerThreads := v },
  number "runtime.max_blocking_threads" "MWS_MAX_BLOCKING_THREADS" (·.runtime.maxBlockingThreads)
    fun c v => { c with runtime.maxBlockingThreads := v },
  number "runtime.thread_keep_alive_ms" "MWS_THREAD_KEEP_ALIVE_MS" (·.runtime.threadKeepAliveMs)
    fun c v => { c with runtime.threadKeepAliveMs := v },
  text "logging.level" "MWS_LOG_LEVEL" (·.logging.level)
    fun c v => { c with logging.level := v },
  flag "logging.frames" "MWS_LOG_FRAMES" (·.logging.frames)
    fun c v => { c with logging.frames := v },
  number "services.heartbeat_interval_ms" "MWS_HEARTBEAT_INTERVAL_MS"
    (·.services.heartbeatIntervalMs)
    fun c v => { c with services.heartbeatIntervalMs := v }
]

def find? (key : String) : Option Setting :=
  table.find? (·.key == key)

end Setting

namespace Config

/-- The configuration with the value of one setting replaced by a variable's value, blanks around
it removed. -/
def override (c : Config) (s : Setting) (raw : String) : Except Error Config :=
  match s.assign (Text.trim raw) c with
  | .ok c => .ok c
  | .error message => .error (.config (s.envVar ++ " (" ++ s.key ++ "): " ++ message))

/-- The settings of a list applied in order: the configuration that results, and the names of
those that were set, or the error that stopped it. -/
def applyAll (environment : Environment) :
    List Setting → Config → Except Error (List String) × Config
  | [], c => (.ok [], c)
  | s :: rest, c =>
    match environment s.envVar with
    | none => applyAll environment rest c
    | some raw =>
      match c.override s raw with
      | .error e => (.error e, c)
      | .ok c =>
        let (applied, c) := applyAll environment rest c
        (applied.map (s.key :: ·), c)

/-- The configuration after the overrides of an environment, up to the first that cannot be read,
and the names of the settings that were overridden. -/
def applyEnvironment (c : Config) (environment : Environment) :
    Except Error (List String) × Config :=
  applyAll environment Setting.table c

end Config

end WsGateway
