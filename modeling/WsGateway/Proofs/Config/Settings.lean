import Mathlib.Data.List.Pairwise
import WsGateway.Config.Load
import WsGateway.Proofs.Config.Values
import WsGateway.Proofs.Yaml.Fields

/-!
# Settings as places in a configuration

Each setting that can be overridden is a place in the configuration, which is read and written, and
a place in the file, which is a path of names (`Knob`). It has values of one kind, and a variable
says one of them or none (`Knob.Says`). The table of overrides is the list of these places
(`Knob.table_eq`). The places are independent: what is written in one is read there and
changes no other (`Knob.independent`), and together with the version they are the whole
configuration (`Knob.eq_of_get`). A file gives a place the value at its path, or else it has its
default (`Config.given_of_ofYaml`).
-/

namespace WsGateway

open Yaml (Decoder Document Gives Reads Slot)

/-- A place in a configuration for values of a type. -/
structure Knob where
  Value : Type
  /-- The names that lead to the place in a file. -/
  path : List String
  envVar : String
  get : Config → Value
  set : Config → Value → Config
  /-- What a text without blanks at its ends says. -/
  Spells : String → Value → Prop
  /-- How such a text is read, and how a value is written for a reader. -/
  read : String → Except String Value
  write : Value → String
  /-- How a value is read in a file. -/
  decoder : Decoder Value
  set_get : ∀ c v, get (set c v) = v
  read_eq_ok_iff : ∀ s v, read s = .ok v ↔ Spells s v

namespace Knob

/-- What a variable says, whatever blanks stand at the ends of its value. -/
def Says (k : Knob) (raw : String) (v : k.Value) : Prop := ∃ s, Text.Strips raw s ∧ k.Spells s v

/-- What a variable says is what its place reads of it. -/
theorem says_iff {k : Knob} {raw : String} {v : k.Value} :
    k.Says raw v ↔ k.read (Text.trim raw) = .ok v := by
  rw [k.read_eq_ok_iff]
  constructor
  · rintro ⟨s, hstrips, hspells⟩
    rwa [Text.trim_eq_iff.mpr hstrips]
  · exact fun h => ⟨_, Text.trim_eq_iff.mp rfl, h⟩

/-- A variable says no more than one thing. -/
theorem Says.unique {k : Knob} {raw : String} {v v' : k.Value} (h : k.Says raw v)
    (h' : k.Says raw v') : v = v' :=
  Except.ok.inj ((says_iff.mp h).symm.trans (says_iff.mp h'))

/-- The entry of the table for the place. -/
def setting (k : Knob) : Setting :=
  ⟨String.intercalate "." k.path, k.envVar, k.write (k.get {}), fun c => k.write (k.get c),
    fun raw c => do
      let v ← k.read raw
      pure (k.set c v)⟩

def text (path : List String) (envVar : String) (get : Config → String)
    (set : Config → String → Config) (h : ∀ c v, get (set c v) = v := by intros; rfl) : Knob :=
  ⟨String, path, envVar, get, set, fun s v => v = s, .ok, id, Decoder.string, h,
    fun _ _ => ⟨fun hread => (Except.ok.inj hread).symm, fun hsame => congrArg _ hsame.symm⟩⟩

def number (path : List String) (envVar : String) (decoder : Decoder UInt64)
    (get : Config → UInt64) (set : Config → UInt64 → Config)
    (h : ∀ c v, get (set c v) = v := by intros; rfl) : Knob :=
  ⟨UInt64, path, envVar, get, set, fun s n => Text.WritesNumber s.toList n.toNat,
    Setting.readNumber, Setting.numberText, decoder, h, fun _ _ => Setting.readNumber_eq_ok_iff⟩

def flag (path : List String) (envVar : String) (get : Config → Bool)
    (set : Config → Bool → Config) (h : ∀ c v, get (set c v) = v := by intros; rfl) : Knob :=
  ⟨Bool, path, envVar, get, set, Setting.SaysFlag, Setting.readFlag, Setting.flagText,
    Decoder.bool, h, fun _ _ => Setting.readFlag_eq_ok_iff⟩

def texts (path : List String) (envVar : String) (get : Config → List String)
    (set : Config → List String → Config) (h : ∀ c v, get (set c v) = v := by intros; rfl) : Knob :=
  ⟨List String, path, envVar, get, set, Text.Lists, fun raw => .ok (Setting.readList raw),
    String.intercalate ",", Decoder.list Decoder.string, h, fun _ _ => by
      rw [Except.ok.injEq, Setting.readList_eq_iff]⟩

/-- All places that can be overridden. -/
def all : List Knob := [
  text ["gateway", "listen"] "MWS_HTTP_LISTEN" (·.gateway.listen)
    fun c v => { c with gateway.listen := v },
  number ["gateway", "bind_timeout_ms"] "MWS_BIND_TIMEOUT_MS" numberDecoder
    (·.gateway.bindTimeoutMs) fun c v => { c with gateway.bindTimeoutMs := v },
  number ["gateway", "handshake_timeout_ms"] "MWS_HANDSHAKE_TIMEOUT_MS" numberDecoder
    (·.gateway.handshakeTimeoutMs) fun c v => { c with gateway.handshakeTimeoutMs := v },
  number ["gateway", "outbound_queue"] "MWS_OUTBOUND_QUEUE" sizeDecoder
    (·.gateway.outboundQueue) fun c v => { c with gateway.outboundQueue := v },
  flag ["http", "chunking_enabled"] "MWS_HTTP_CHUNKING" (·.http.chunkingEnabled)
    fun c v => { c with http.chunkingEnabled := v },
  number ["http", "max_chunk_bytes"] "MWS_HTTP_MAX_CHUNK_BYTES" sizeDecoder
    (·.http.maxChunkBytes) fun c v => { c with http.maxChunkBytes := v },
  texts ["http", "cors", "allow_origins"] "MWS_CORS_ALLOW_ORIGINS" (·.http.cors.allowOrigins)
    fun c v => { c with http.cors.allowOrigins := v },
  text ["ws", "path"] "MWS_WS_PATH" (·.ws.path)
    fun c v => { c with ws.path := v },
  flag ["ws", "aggregation_enabled"] "MWS_WS_AGGREGATION" (·.ws.aggregationEnabled)
    fun c v => { c with ws.aggregationEnabled := v },
  number ["ws", "max_frame_bytes"] "MWS_WS_MAX_FRAME_BYTES" sizeDecoder
    (·.ws.maxFrameBytes) fun c v => { c with ws.maxFrameBytes := v },
  number ["ws", "max_message_bytes"] "MWS_WS_MAX_MESSAGE_BYTES" sizeDecoder
    (·.ws.maxMessageBytes) fun c v => { c with ws.maxMessageBytes := v },
  number ["runtime", "worker_threads"] "MWS_WORKER_THREADS" sizeDecoder
    (·.runtime.workerThreads) fun c v => { c with runtime.workerThreads := v },
  number ["runtime", "max_blocking_threads"] "MWS_MAX_BLOCKING_THREADS" sizeDecoder
    (·.runtime.maxBlockingThreads) fun c v => { c with runtime.maxBlockingThreads := v },
  number ["runtime", "thread_keep_alive_ms"] "MWS_THREAD_KEEP_ALIVE_MS" numberDecoder
    (·.runtime.threadKeepAliveMs) fun c v => { c with runtime.threadKeepAliveMs := v },
  text ["logging", "level"] "MWS_LOG_LEVEL" (·.logging.level)
    fun c v => { c with logging.level := v },
  flag ["logging", "frames"] "MWS_LOG_FRAMES" (·.logging.frames)
    fun c v => { c with logging.frames := v },
  number ["services", "heartbeat_interval_ms"] "MWS_HEARTBEAT_INTERVAL_MS" numberDecoder
    (·.services.heartbeatIntervalMs) fun c v => { c with services.heartbeatIntervalMs := v }
]

/-- **The table of overrides** has just these places, in this order. -/
theorem table_eq : Setting.table = all.map setting := by
  rfl

/-! ## Independent places -/

/-- What is written in one place does not show in the other. -/
def Independent (k k' : Knob) : Prop :=
  (∀ c v, k'.get (k.set c v) = k'.get c) ∧ ∀ c v, k.get (k'.set c v) = k.get c

instance : Std.Symm Independent := ⟨fun _ _ h => ⟨h.2, h.1⟩⟩

/-- Assigning a place leaves the version alone. -/
theorem version_set : ∀ k ∈ all, ∀ c v, (k.set c v).version = c.version := by
  unfold all
  simp only [List.forall_mem_cons]
  repeat' apply And.intro
  all_goals first
    | exact fun _ _ => rfl
    | exact fun _ h => absurd h List.not_mem_nil

/-- What is assigned to one place of the table shows in no other one. -/
theorem pairwise_independent : all.Pairwise Independent := by
  unfold all
  simp only [List.pairwise_cons, List.forall_mem_cons]
  repeat' apply And.intro
  all_goals first
    | exact fun _ _ => rfl
    | exact fun _ h => absurd h List.not_mem_nil
    | exact List.Pairwise.nil

theorem independent {k k' : Knob} (hk : k ∈ all) (hk' : k' ∈ all) (hne : k ≠ k') :
    Independent k k' :=
  pairwise_independent.forall hk hk' hne

attribute [ext] GatewaySection CorsSection HttpSection WsSection RuntimeSection LoggingSection
  ServicesSection Config

/-- **The places and the version are the whole configuration.** -/
theorem eq_of_get {c c' : Config} (hversion : c.version = c'.version)
    (h : ∀ k ∈ all, k.get c = k.get c') : c = c' := by
  unfold all at h
  simp only [List.forall_mem_cons] at h
  obtain ⟨hlisten, hbind, hhandshake, hqueue, hchunking, hchunk, horigins, hpath, haggregation,
    hframe, hmessage, hworkers, hblocking, halive, hlevel, hframes, hbeat, -⟩ := h
  have hgateway : c.gateway = c'.gateway := GatewaySection.ext hlisten hbind hhandshake hqueue
  have hhttp : c.http = c'.http := HttpSection.ext hchunking hchunk (CorsSection.ext horigins)
  have hws : c.ws = c'.ws := WsSection.ext hpath haggregation hframe hmessage
  have hruntime : c.runtime = c'.runtime := RuntimeSection.ext hworkers hblocking halive
  have hlogging : c.logging = c'.logging := LoggingSection.ext hlevel hframes
  exact Config.ext hversion hgateway hhttp hws hruntime hlogging (ServicesSection.ext hbeat)

end Knob

/-! ## Places in a file -/

section Slots

open Yaml (record)

/-- The sections of a configuration are read apart. -/
theorem slots_config :
    Slot Config.fields "version" Config.version Decoder.uint32 ∧
    Slot Config.fields "gateway" Config.gateway (record "GatewaySection" GatewaySection.fields {}) ∧
    Slot Config.fields "http" Config.http (record "HttpSection" HttpSection.fields {}) ∧
    Slot Config.fields "ws" Config.ws (record "WsSection" WsSection.fields {}) ∧
    Slot Config.fields "runtime" Config.runtime (record "RuntimeSection" RuntimeSection.fields {}) ∧
    Slot Config.fields "logging" Config.logging (record "LoggingSection" LoggingSection.fields {}) ∧
    Slot Config.fields "services" Config.services
      (record "ServicesSection" ServicesSection.fields {}) := by
  unfold Config.fields
  repeat' apply And.intro
  -- along the list of fields: the one with the name, and all others beside it
  all_goals
    repeat first
      | exact Slot.nil
      | refine Slot.self ?_ fun _ _ => rfl
      | refine Slot.beside ?_ (by decide) fun _ _ => rfl

/-- So are the fields of each section. -/
theorem slots_sections :
    (Slot GatewaySection.fields "listen" GatewaySection.listen Decoder.string ∧
      Slot GatewaySection.fields "bind_timeout_ms" GatewaySection.bindTimeoutMs numberDecoder ∧
      Slot GatewaySection.fields "handshake_timeout_ms" GatewaySection.handshakeTimeoutMs
        numberDecoder ∧
      Slot GatewaySection.fields "outbound_queue" GatewaySection.outboundQueue sizeDecoder) ∧
    (Slot HttpSection.fields "chunking_enabled" HttpSection.chunkingEnabled Decoder.bool ∧
      Slot HttpSection.fields "max_chunk_bytes" HttpSection.maxChunkBytes sizeDecoder ∧
      Slot HttpSection.fields "cors" HttpSection.cors
        (record "CorsSection" CorsSection.fields {}) ∧
      Slot CorsSection.fields "allow_origins" CorsSection.allowOrigins
        (Decoder.list Decoder.string)) ∧
    (Slot WsSection.fields "path" WsSection.path Decoder.string ∧
      Slot WsSection.fields "aggregation_enabled" WsSection.aggregationEnabled Decoder.bool ∧
      Slot WsSection.fields "max_frame_bytes" WsSection.maxFrameBytes sizeDecoder ∧
      Slot WsSection.fields "max_message_bytes" WsSection.maxMessageBytes sizeDecoder) ∧
    (Slot RuntimeSection.fields "worker_threads" RuntimeSection.workerThreads sizeDecoder ∧
      Slot RuntimeSection.fields "max_blocking_threads" RuntimeSection.maxBlockingThreads
        sizeDecoder ∧
      Slot RuntimeSection.fields "thread_keep_alive_ms" RuntimeSection.threadKeepAliveMs
        numberDecoder) ∧
    (Slot LoggingSection.fields "level" LoggingSection.level Decoder.string ∧
      Slot LoggingSection.fields "frames" LoggingSection.frames Decoder.bool) ∧
    Slot ServicesSection.fields "heartbeat_interval_ms" ServicesSection.heartbeatIntervalMs
      numberDecoder := by
  unfold GatewaySection.fields HttpSection.fields CorsSection.fields WsSection.fields
    RuntimeSection.fields LoggingSection.fields ServicesSection.fields
  -- One slot for each key: the keys before it are skipped by name, and the key itself is set and
  -- got.
  repeat' apply And.intro
  all_goals
    repeat first
      | exact Slot.nil
      | refine Slot.self ?_ fun _ _ => rfl
      | refine Slot.beside ?_ (by decide) fun _ _ => rfl

end Slots

/-- Whatever configuration is read, each place has what is given for its path. -/
theorem Knob.reads : ∀ k ∈ Knob.all, Reads Config.fields {} k.path k.get k.decoder := by
  obtain ⟨-, hgateway, hhttp, hws, hruntime, hlogging, hservices⟩ := slots_config
  obtain ⟨⟨hlisten, hbind, hhandshake, hqueue⟩, ⟨hchunking, hchunk, hcors, horigins⟩,
    ⟨hpath, haggregation, hframe, hmessage⟩, ⟨hworkers, hblocking, halive⟩, ⟨hlevel, hframes⟩,
    hbeat⟩ := slots_sections
  unfold Knob.all
  simp only [List.forall_mem_cons]
  exact ⟨hgateway.nested Config.gateway hlisten.reads, hgateway.nested Config.gateway hbind.reads,
    hgateway.nested Config.gateway hhandshake.reads, hgateway.nested Config.gateway hqueue.reads,
    hhttp.nested Config.http hchunking.reads, hhttp.nested Config.http hchunk.reads,
    hhttp.nested Config.http (hcors.nested HttpSection.cors horigins.reads),
    hws.nested Config.ws hpath.reads, hws.nested Config.ws haggregation.reads,
    hws.nested Config.ws hframe.reads, hws.nested Config.ws hmessage.reads,
    hruntime.nested Config.runtime hworkers.reads, hruntime.nested Config.runtime hblocking.reads,
    hruntime.nested Config.runtime halive.reads, hlogging.nested Config.logging hlevel.reads,
    hlogging.nested Config.logging hframes.reads, hservices.nested Config.services hbeat.reads,
    fun _ h => absurd h List.not_mem_nil⟩

/-- A configuration that is read has a version, and is a record of its sections. -/
theorem Config.decoder_eq_ok {d : Document} {place : Option String} {node : Yaml.Node} {c : Config}
    (h : Config.decoder d place node = .ok c) :
    Yaml.record "GatewayConfig" Config.fields {} d place node = .ok c ∧
      ∃ found p, d.at? node ["version"] = some found ∧
        Decoder.uint32 d p found = .ok c.version := by
  obtain ⟨⟨c', seen⟩, hrecord, hversion⟩ := Json.bind_eq_ok.mp h
  replace hversion : (if seen.contains "version" then .ok c' else
    .error (.data place "missing field `version`")) = Except.ok (ε := Yaml.Trouble) c := hversion
  split at hversion
  · next hseen =>
    cases hversion
    have hgives := Yaml.readRecord_gives slots_config.1 hrecord
    have hat : d.at? node ["version"] = d.find? node "version" := by
      unfold Document.at? Document.at?
      exact Option.bind_fun_some _
    refine ⟨Json.bind_eq_ok.mpr ⟨_, hrecord, rfl⟩, ?_⟩
    rw [hat]
    rcases Yaml.readRecord_cases hrecord with ⟨pairs, hpairs, hfields⟩ | ⟨-, -, rfl⟩
    -- the version was seen, so some pair of the map gives it
    · have hgiven : (d.find? node "version").isSome := by
        have hmem := Yaml.mem_readFields hfields (List.contains_iff_mem.mp hseen)
        unfold Document.find?
        simp only [hpairs]
        exact hmem.resolve_left List.not_mem_nil
      obtain ⟨found, hfound⟩ := Option.isSome_iff_exists.mp hgiven
      rw [hfound] at hgives
      obtain ⟨p, hp⟩ := hgives
      exact ⟨found, p, hfound, hp⟩
    · cases hseen
  · cases hversion

/-- A text is read if its document is, and nothing in it is malformed. -/
theorem Config.ofYaml_eq_ok_iff {text : String} {c : Config} : Config.ofYaml text = .ok c ↔
    (Document.parse text).sound = true ∧
      Config.decoder (Document.parse text) none (Document.parse text).root = .ok c := by
  have hdecode : Config.ofYaml text = .ok c ↔ Yaml.decode Config.decoder text = .ok c := by
    unfold Config.ofYaml
    constructor
    · intro h
      split at h
      · next heq =>
        cases h
        exact heq
      · split at h <;> cases h
    · intro h
      rw [h]
  rw [hdecode]
  constructor
  · intro h
    obtain ⟨c', hc', hsound⟩ := Json.bind_eq_ok.mp h
    split at hsound
    · next hs =>
      cases hsound
      exact ⟨hs, hc'⟩
    · cases hsound
  · rintro ⟨hs, hc⟩
    exact Json.bind_eq_ok.mpr ⟨c, hc, if_pos hs⟩

/-- **What a file gives**: each place of a configuration that was read has the value at its path, or
its default if there is none; the version is always given. -/
theorem Config.given_of_ofYaml {text : String} {file : Config}
    (h : Config.ofYaml text = .ok file) :
    (∀ k ∈ Knob.all, Gives (Document.parse text)
      ((Document.parse text).at? (Document.parse text).root k.path) k.decoder (k.get {})
      (k.get file)) ∧
    ∃ node place, (Document.parse text).at? (Document.parse text).root ["version"] = some node ∧
      Decoder.uint32 (Document.parse text) place node = .ok file.version := by
  obtain ⟨-, hdecoder⟩ := Config.ofYaml_eq_ok_iff.mp h
  obtain ⟨hrecord, hversion⟩ := Config.decoder_eq_ok hdecoder
  exact ⟨fun k hk => Knob.reads k hk hrecord, hversion⟩

end WsGateway
