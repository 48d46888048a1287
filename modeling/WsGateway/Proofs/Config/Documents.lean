import WsGateway.Proofs.Config.Layers
import WsGateway.Proofs.Yaml.Reordering

/-!
# Documents of configurations

Which documents describe a configuration is said by a schema of their own (`Config.schema`), without
an order: the version is there, every map is strict, and what is given can be read
(`Config.Accepted`). The configuration then has what is given and the defaults elsewhere
(`Config.Describes`). Just this is what the decoder does, for documents with maps for sections
(`Config.ofYaml_exact`).
-/

namespace WsGateway

open Yaml (Decoder Document Event Node Admits Follows Parallel Plain Schema Strict follows_of
  follows_record record)

/-! ## The schema -/

def GatewaySection.schema : Schema := .record [
  ("listen", .of Decoder.string),
  ("bind_timeout_ms", .of numberDecoder),
  ("handshake_timeout_ms", .of numberDecoder),
  ("outbound_queue", .of sizeDecoder)
]

def CorsSection.schema : Schema := .record [
  ("allow_origins", .of (Decoder.list Decoder.string))
]

def HttpSection.schema : Schema := .record [
  ("chunking_enabled", .of Decoder.bool),
  ("max_chunk_bytes", .of sizeDecoder),
  ("cors", CorsSection.schema)
]

def WsSection.schema : Schema := .record [
  ("path", .of Decoder.string),
  ("aggregation_enabled", .of Decoder.bool),
  ("max_frame_bytes", .of sizeDecoder),
  ("max_message_bytes", .of sizeDecoder)
]

def RuntimeSection.schema : Schema := .record [
  ("worker_threads", .of sizeDecoder),
  ("max_blocking_threads", .of sizeDecoder),
  ("thread_keep_alive_ms", .of numberDecoder)
]

def LoggingSection.schema : Schema := .record [
  ("level", .of Decoder.string),
  ("frames", .of Decoder.bool)
]

def ServicesSection.schema : Schema := .record [
  ("heartbeat_interval_ms", .of numberDecoder)
]

/-- The version and the sections, each with its fields. -/
def Config.schema : Schema := .record [
  ("version", .of Decoder.uint32),
  ("gateway", GatewaySection.schema),
  ("http", HttpSection.schema),
  ("ws", WsSection.schema),
  ("runtime", RuntimeSection.schema),
  ("logging", LoggingSection.schema),
  ("services", ServicesSection.schema)
]

theorem plain_number : Plain numberDecoder := Yaml.plain_uint64 "u64"

theorem plain_size : Plain sizeDecoder := Yaml.plain_uint64 "usize"

theorem follows_string : Follows Decoder.string (.of Decoder.string) := follows_of Yaml.plain_string

theorem follows_bool : Follows Decoder.bool (.of Decoder.bool) := follows_of Yaml.plain_bool

theorem follows_number : Follows numberDecoder (.of numberDecoder) := follows_of plain_number

theorem follows_size : Follows sizeDecoder (.of sizeDecoder) := follows_of plain_size

/-- The decoder of each section follows the schema of that section, field by field. -/
theorem follows_gatewaySection :
    Follows (record "GatewaySection" GatewaySection.fields {}) GatewaySection.schema :=
  follows_record
    (.cons ⟨rfl, follows_string.field _ _⟩ <| .cons ⟨rfl, follows_number.field _ _⟩ <|
      .cons ⟨rfl, follows_number.field _ _⟩ <| .cons ⟨rfl, follows_size.field _ _⟩ .nil)
    (by decide) _ _

theorem follows_corsSection :
    Follows (record "CorsSection" CorsSection.fields {}) CorsSection.schema :=
  follows_record
    (.cons ⟨rfl, (follows_of (Yaml.plain_list Yaml.plain_string)).field _ _⟩ .nil) (by decide) _ _

theorem follows_httpSection :
    Follows (record "HttpSection" HttpSection.fields {}) HttpSection.schema :=
  follows_record
    (.cons ⟨rfl, follows_bool.field _ _⟩ <| .cons ⟨rfl, follows_size.field _ _⟩ <|
      .cons ⟨rfl, follows_corsSection.field _ _⟩ .nil)
    (by decide) _ _

theorem follows_wsSection : Follows (record "WsSection" WsSection.fields {}) WsSection.schema :=
  follows_record
    (.cons ⟨rfl, follows_string.field _ _⟩ <| .cons ⟨rfl, follows_bool.field _ _⟩ <|
      .cons ⟨rfl, follows_size.field _ _⟩ <| .cons ⟨rfl, follows_size.field _ _⟩ .nil)
    (by decide) _ _

theorem follows_runtimeSection :
    Follows (record "RuntimeSection" RuntimeSection.fields {}) RuntimeSection.schema :=
  follows_record
    (.cons ⟨rfl, follows_size.field _ _⟩ <| .cons ⟨rfl, follows_size.field _ _⟩ <|
      .cons ⟨rfl, follows_number.field _ _⟩ .nil)
    (by decide) _ _

theorem follows_loggingSection :
    Follows (record "LoggingSection" LoggingSection.fields {}) LoggingSection.schema :=
  follows_record
    (.cons ⟨rfl, follows_string.field _ _⟩ <| .cons ⟨rfl, follows_bool.field _ _⟩ .nil)
    (by decide) _ _

theorem follows_servicesSection :
    Follows (record "ServicesSection" ServicesSection.fields {}) ServicesSection.schema :=
  follows_record (.cons ⟨rfl, follows_number.field _ _⟩ .nil) (by decide) _ _

namespace Config

/-- The parts of the schema are those of the record. -/
theorem parallel_fields : ∃ parts, schema = .record parts ∧ Parallel fields parts ∧
    (parts.map Prod.fst).Nodup :=
  ⟨_, rfl, .cons ⟨rfl, (follows_of Yaml.plain_uint32).field _ _⟩ <|
    .cons ⟨rfl, follows_gatewaySection.field _ _⟩ <| .cons ⟨rfl, follows_httpSection.field _ _⟩ <|
    .cons ⟨rfl, follows_wsSection.field _ _⟩ <| .cons ⟨rfl, follows_runtimeSection.field _ _⟩ <|
    .cons ⟨rfl, follows_loggingSection.field _ _⟩ <|
    .cons ⟨rfl, follows_servicesSection.field _ _⟩ .nil, by decide⟩

/-- The leaves are the version and the places that can be overridden. -/
theorem leaves_schema : schema.leaves =
    (["version"], Admits Decoder.uint32) :: Knob.all.map fun k => (k.path, Admits k.decoder) :=
  rfl

/-- What stands in a place is read by the decoder of a single node. -/
theorem plain_decoder : ∀ k ∈ Knob.all, Plain k.decoder := by
  unfold Knob.all
  simp only [List.forall_mem_cons]
  exact ⟨Yaml.plain_string, plain_number, plain_number, plain_size, Yaml.plain_bool, plain_size,
    Yaml.plain_list Yaml.plain_string, Yaml.plain_string, Yaml.plain_bool, plain_size, plain_size,
    plain_size, plain_size, plain_number, Yaml.plain_string, Yaml.plain_bool, plain_number,
    fun _ h => absurd h List.not_mem_nil⟩

/-- So the leaves of the schema are read by decoders of single nodes. -/
theorem plain_schema : schema.Plain := by
  rw [Schema.Plain, leaves_schema]
  refine List.forall_mem_cons.mpr ⟨⟨_, _, Yaml.plain_uint32, rfl⟩, fun x hx => ?_⟩
  obtain ⟨k, hk, rfl⟩ := List.mem_map.mp hx
  exact ⟨_, _, plain_decoder k hk, rfl⟩

/-- On the way to a leaf there are sections. -/
theorem mem_sections_of_leaf {path front rest : List String} {name : String}
    (hpath : path ∈ schema.leaves.map Prod.fst) (hsplit : path = front ++ name :: rest) :
    front ∈ schema.sections.map Prod.fst := by
  have hall : ∀ path ∈ schema.leaves.map Prod.fst, ∀ n < path.length,
      path.take n ∈ schema.sections.map Prod.fst := by
    decide
  have hfront := hall path hpath front.length (by simp [hsplit])
  rw [hsplit, List.take_left] at hfront
  exact hfront

/-! ## What is accepted, and what it says -/

/-- The version is given, and everything fits the schema. -/
structure Accepted (d : Document) (node : Node) : Prop where
  version : ∃ inner, d.Holds node ["version"] inner
  fits : schema.Fits d node

/-- The configuration has what is given, as it is read, and the defaults where nothing is given. -/
structure Describes (d : Document) (node : Node) (c : Config) : Prop where
  version : ∀ inner, d.Holds node ["version"] inner →
    ∃ place, Decoder.uint32 d place inner = .ok c.version
  given : ∀ k ∈ Knob.all, ∀ inner, d.Holds node k.path inner →
    ∃ place, k.decoder d place inner = .ok (k.get c)
  kept : ∀ k ∈ Knob.all, (∀ inner, ¬ d.Holds node k.path inner) → k.get c = k.get {}

variable {d d' : Document} {node node' : Node} {place : Option String} {c c' : Config}
  {text : String}

/-- A document describes at most one configuration. -/
theorem Describes.unique (hversion : ∃ inner, d.Holds node ["version"] inner)
    (h : Describes d node c) (h' : Describes d node c') : c = c' := by
  refine Knob.eq_of_get ?_ fun k hk => ?_
  · obtain ⟨inner, hinner⟩ := hversion
    obtain ⟨p, hp⟩ := h.version inner hinner
    obtain ⟨p', hp'⟩ := h'.version inner hinner
    exact Except.ok.inj ((Yaml.plain_uint32.read rfl hp).symm.trans hp')
  · by_cases hgiven : ∃ inner, d.Holds node k.path inner
    · obtain ⟨inner, hinner⟩ := hgiven
      obtain ⟨p, hp⟩ := h.given k hk inner hinner
      obtain ⟨p', hp'⟩ := h'.given k hk inner hinner
      exact Except.ok.inj (((plain_decoder k hk).read rfl hp).symm.trans hp')
    · have hnone := not_exists.mp hgiven
      exact (h.kept k hk hnone).trans (h'.kept k hk hnone).symm

/-- Where the schema fits, the paths that are given are those that lead somewhere. -/
theorem at?_of_fits (h : schema.Fits d node) {path : List String}
    (hpath : path ∈ schema.leaves.map Prod.fst) {inner : Node} (hinner : d.Holds node path inner) :
    d.at? node path = some inner := by
  refine Yaml.at?_of_holds (fun front name rest hsplit inner pairs hfront hpairs => ?_) hinner
  obtain ⟨x, hx, rfl⟩ := List.mem_map.mp (mem_sections_of_leaf hpath hsplit)
  exact (h.tight x hx inner hfront pairs hpairs).nodup

/-- What is read is accepted, and describes the configuration. -/
theorem describes_of_decoder (h : decoder d place node = .ok c) :
    Accepted d node ∧ Describes d node c := by
  obtain ⟨hrecord, found, p, hfound, hp⟩ := decoder_eq_ok h
  obtain ⟨⟨c', seen⟩, hread, hc'⟩ := Json.bind_eq_ok.mp hrecord
  cases hc'
  obtain ⟨parts, hschema, hparallel, hnodup⟩ := parallel_fields
  have hfits : schema.Fits d node := hschema ▸ Yaml.fits_of_readRecord hparallel hnodup hread
  -- the values are those of the first pairs with their names, and strict maps have no others
  refine ⟨⟨⟨found, Yaml.holds_of_at? hfound⟩, hfits⟩, ?_, ?_, ?_⟩
  · intro inner hinner
    have hat := at?_of_fits hfits List.mem_cons_self hinner
    rw [hfound] at hat
    cases hat
    exact ⟨p, hp⟩
  · intro k hk inner hinner
    have hpath : k.path ∈ schema.leaves.map Prod.fst := by
      rw [leaves_schema]
      exact List.mem_cons_of_mem _ (List.mem_map.mpr ⟨_, List.mem_map_of_mem hk, rfl⟩)
    have hgives := Knob.reads k hk hrecord
    rw [at?_of_fits hfits hpath hinner] at hgives
    exact hgives
  · intro k hk hnone
    have hgives := Knob.reads k hk hrecord
    cases hat : d.at? node k.path with
    | none =>
      rw [hat] at hgives
      exact hgives
    | some inner => exact absurd (Yaml.holds_of_at? hat) (hnone inner)

/-- What is accepted is read, if the sections are maps. -/
theorem exists_decoder (hmapped : schema.Mapped d node) (h : Accepted d node)
    (place : Option String) : ∃ c, decoder d place node = .ok c := by
  obtain ⟨parts, hschema, hparallel, -⟩ := parallel_fields
  obtain ⟨c, seen, hread, hseen⟩ := Yaml.exists_readRecord hparallel (hschema ▸ hmapped)
    (hschema ▸ h.fits) "GatewayConfig" {} place
  obtain ⟨inner, next, hnext, -⟩ := h.version
  refine ⟨c, Json.bind_eq_ok.mpr ⟨(c, seen), hread, ?_⟩⟩
  exact if_pos (List.contains_iff_mem.mpr (hseen "version" next hnext))

/-- **What the decoder reads**: the documents that are accepted, each as the configuration that it
describes. -/
theorem decoder_eq_ok_iff (hmapped : schema.Mapped d node) :
    decoder d place node = .ok c ↔ Accepted d node ∧ Describes d node c := by
  constructor
  · exact describes_of_decoder
  · rintro ⟨haccepted, hdescribes⟩
    obtain ⟨c', hc'⟩ := exists_decoder hmapped haccepted place
    rw [hdescribes.unique haccepted.version (describes_of_decoder hc').2]
    exact hc'

/-! ## Other documents for the same configuration -/

/-- Two neighbours of a map may change places in a document that is accepted. -/
theorem Accepted.swap (h : node.Swap node') (haccepted : Accepted d node) : Accepted d node' where
  version := by
    obtain ⟨inner, hinner⟩ := haccepted.version
    obtain ⟨inner', hinner', -⟩ := h.holds hinner
    exact ⟨inner', hinner'⟩
  fits := h.fits plain_schema haccepted.fits

/-- What a document describes does not depend on which of two neighbours comes first. -/
theorem Describes.swap (h : node.Swap node') (hdescribes : Describes d node c) :
    Describes d node' c where
  version := h.reads Yaml.plain_uint32 hdescribes.version
  given k hk := h.reads (plain_decoder k hk) (hdescribes.given k hk)
  kept k hk hnone := hdescribes.kept k hk fun inner hinner => by
    obtain ⟨inner', hinner', -⟩ := h.holds hinner
    exact hnone inner' hinner'

/-- Whether a document is accepted depends on the nodes that its aliases stand for. -/
theorem Accepted.congr (h : d.resolve = d'.resolve) (haccepted : Accepted d node) :
    Accepted d' node where
  version := haccepted.version.imp fun _ hinner => (Yaml.holds_congr h).mp hinner
  fits := Yaml.fits_congr plain_schema h haccepted.fits

theorem Describes.congr (h : d.resolve = d'.resolve) (hdescribes : Describes d node c) :
    Describes d' node c where
  version inner hinner := by
    obtain ⟨p, hp⟩ := hdescribes.version inner ((Yaml.holds_congr h).mpr hinner)
    exact ⟨p, Yaml.plain_uint32.read h hp⟩
  given k hk inner hinner := by
    obtain ⟨p, hp⟩ := hdescribes.given k hk inner ((Yaml.holds_congr h).mpr hinner)
    exact ⟨p, (plain_decoder k hk).read h hp⟩
  kept k hk hnone :=
    hdescribes.kept k hk fun inner hinner => hnone inner ((Yaml.holds_congr h).mp hinner)

/-- Pairs in another order give the same configuration. -/
theorem decoder_reordered (hmapped : schema.Mapped d node) (hreordered : node.Reordered node')
    (hsame : d.resolve = d'.resolve) :
    decoder d place node = .ok c ↔ decoder d' place node' = .ok c := by
  have hmapped' : schema.Mapped d' node' :=
    Yaml.mapped_congr hsame ((hreordered.iff_of_step fun _ _ h => h.mapped).mp hmapped)
  rw [decoder_eq_ok_iff hmapped, decoder_eq_ok_iff hmapped']
  calc Accepted d node ∧ Describes d node c
      ↔ Accepted d node' ∧ Describes d node' c :=
        hreordered.iff_of_step (P := fun n => Accepted d n ∧ Describes d n c)
          fun _ _ h ⟨ha, hd⟩ => ⟨ha.swap h, hd.swap h⟩
    _ ↔ Accepted d' node' ∧ Describes d' node' c :=
        ⟨fun h => ⟨h.1.congr hsame, h.2.congr hsame⟩,
          fun h => ⟨h.1.congr hsame.symm, h.2.congr hsame.symm⟩⟩

/-- The other document gives something for the path if the first one does, and it reads the same. -/
structure Carried {α : Type} (d d' : Document) (path : List String) (decoder : Decoder α) :
    Prop where
  given : (∃ inner, d.Holds d.root path inner) → ∃ inner, d'.Holds d'.root path inner
  same : ∀ inner inner', d.Holds d.root path inner → d'.Holds d'.root path inner' →
    ∀ ⦃place v⦄, decoder d place inner = .ok v → ∃ place', decoder d' place' inner' = .ok v

/-- The other document has strict maps for sections and gives all that the first one gives; what it
gives beyond are defaults. -/
structure WritesOut (d d' : Document) : Prop where
  sound : d'.sound = true
  mapped : schema.Mapped d' d'.root
  tight : schema.Tight d' d'.root
  version : Carried d d' ["version"] Decoder.uint32
  carried : ∀ k ∈ Knob.all, Carried d d' k.path k.decoder
  beyond : ∀ k ∈ Knob.all, (∀ inner, ¬ d.Holds d.root k.path inner) →
    ∀ inner, d'.Holds d'.root k.path inner → ∃ place, k.decoder d' place inner = .ok (k.get {})

/-- Writing out what is a default anyway does not change what is described. -/
theorem WritesOut.describes (h : WritesOut d d') (haccepted : Accepted d d.root)
    (hdescribes : Describes d d.root c) : Describes d' d'.root c where
  version inner' hinner' := by
    obtain ⟨inner, hinner⟩ := haccepted.version
    obtain ⟨p, hp⟩ := hdescribes.version inner hinner
    exact h.version.same inner inner' hinner hinner' hp
  given k hk inner' hinner' := by
    by_cases hgiven : ∃ inner, d.Holds d.root k.path inner
    · obtain ⟨inner, hinner⟩ := hgiven
      obtain ⟨p, hp⟩ := hdescribes.given k hk inner hinner
      exact (h.carried k hk).same inner inner' hinner hinner' hp
    · have hnone := not_exists.mp hgiven
      rw [hdescribes.kept k hk hnone]
      exact h.beyond k hk hnone inner' hinner'
  kept k hk hnone := hdescribes.kept k hk fun inner hinner => by
    obtain ⟨inner', hinner'⟩ := (h.carried k hk).given ⟨inner, hinner⟩
    exact hnone inner' hinner'

/-- Writing out what is a default anyway keeps a document accepted. -/
theorem WritesOut.accepted (h : WritesOut d d') (haccepted : Accepted d d.root)
    (hdescribes : Describes d d.root c) : Accepted d' d'.root where
  version := h.version.given haccepted.version
  fits := by
    have hsame := h.describes haccepted hdescribes
    refine ⟨h.tight, ?_⟩
    rw [leaves_schema]
    refine List.forall_mem_cons.mpr ⟨fun inner hinner => ?_, fun x hx inner hinner => ?_⟩
    · obtain ⟨p, hp⟩ := hsame.version inner hinner
      exact ⟨p, _, hp⟩
    · obtain ⟨k, hk, rfl⟩ := List.mem_map.mp hx
      obtain ⟨p, hp⟩ := hsame.given k hk inner hinner
      exact ⟨p, _, hp⟩

/-! ## Texts -/

/-- The pairs of maps may stand in any order in a text that is loaded. -/
theorem ofYaml_reordered {text' : String} {root : Node}
    (hmapped : schema.Mapped (Document.parse text) (Document.parse text).root)
    (hparse : Document.parse text' = { Document.parse text with root := root })
    (hreordered : (Document.parse text).root.Reordered root) :
    ofYaml text = .ok c ↔ ofYaml text' = .ok c := by
  rw [ofYaml_eq_ok_iff, ofYaml_eq_ok_iff, hparse]
  -- the parser has done its work, and is not to be unfolded
  generalize Document.parse text = d at *
  exact and_congr_right fun _ => decoder_reordered hmapped hreordered rfl

/-- A text that is not read is refused as a configuration, whatever is loaded with it. -/
theorem load_refused (h : ∀ c, ofYaml text ≠ .ok c) :
    ∃ message, ∀ path environment, loadFile path (.text text) = .error (.config message) ∧
      loadLayered path (.text text) environment = .error (.config message) := by
  -- What does not decode fails with a CONFIG error, whichever way it fails.
  have herror : ∃ message, ofYaml text = .error (.config message) := by
    unfold ofYaml at h ⊢
    split
    · next c heq =>
      rw [heq] at h
      exact absurd rfl (h c)
    · split
      · exact ⟨_, rfl⟩
      · exact ⟨_, rfl⟩
  obtain ⟨message, hmessage⟩ := herror
  refine ⟨message, fun path environment => ⟨?_, ?_⟩⟩
  · show (ofYaml text >>= _) = _
    rw [hmessage]
    rfl
  · show (ofYaml text >>= _) = _
    rw [hmessage]
    rfl

end Config

end WsGateway
