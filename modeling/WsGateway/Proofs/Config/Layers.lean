import WsGateway.Proofs.Config.Overriding

/-!
# Layers of a configuration

A configuration is put together from three layers: defaults, a file, and the variables of an
environment. The merge of a file and an environment has in each place what its variable says, and
else what the file has (`Config.Merge`). The overrides of the environment make just this merge, or
they fail as a variable cannot be read (`merge_cases`). The limits are those of the merge: neither
those that the file alone breaks nor those that it alone keeps count
(`loadLayered_eq_ok_iff_merge`).
-/

namespace WsGateway

open Yaml (Decoder Document Gives)

namespace Config

/-- In every place of the merge is what its variable says, and else what was there before. -/
def Merge (environment : Environment) (file c : Config) : Prop :=
  c.version = file.version ∧ ∀ k ∈ Knob.all,
    match environment k.envVar with
    | some raw => k.Says raw (k.get c)
    | none => k.get c = k.get file

variable {environment : Environment} {c c' file : Config}

/-! ## The merge -/

/-- There is at most one configuration that has its layers in this order. -/
theorem Merge.unique (h : Merge environment file c) (h' : Merge environment file c') : c = c' := by
  refine Knob.eq_of_get (h.1.trans h'.1.symm) ?_
  intro k hk
  have hc := h.2 k hk
  have hc' := h'.2 k hk
  cases hvar : environment k.envVar with
  | none =>
    simp only [hvar] at hc hc'
    exact hc.trans hc'.symm
  | some raw =>
    simp only [hvar] at hc hc'
    exact hc.unique hc'

/-- Layers are put together only if every variable that is set can be read. -/
theorem Merge.readable (h : Merge environment file c) : Readable environment := by
  intro k hk raw hraw
  have hc := h.2 k hk
  simp only [hraw] at hc
  exact ⟨_, hc⟩

/-- The file with the places assigned whose variables are set has its layers in order. -/
theorem Assigned.merge (h : Assigned environment (given environment Knob.all) file c) :
    Merge environment file c := by
  refine ⟨h.version, ?_⟩
  intro k hk
  cases hvar : environment k.envVar with
  | some raw =>
    obtain ⟨raw', hraw', hread⟩ := h.read k (mem_given.mpr ⟨hk, raw, hvar⟩)
    rw [hvar] at hraw'
    cases hraw'
    exact hread
  | none =>
    apply h.kept k hk
    intro hmem
    obtain ⟨-, raw, hraw⟩ := mem_given.mp hmem
    rw [hvar] at hraw
    cases hraw

/-- **The overrides of an environment** make the merge, or one of the variables cannot be read. -/
theorem merge_cases (environment : Environment) (file : Config) :
    (∃ names c, file.applyEnvironment environment = (.ok names, c) ∧ Merge environment file c) ∨
    ∃ e c, file.applyEnvironment environment = (.error e, c) ∧ ¬ Readable environment := by
  rcases applyEnvironment_cases environment file with
    ⟨c, happly, hassigned⟩ | ⟨e, c, happly, hstopped⟩
  · exact .inl ⟨_, c, happly, hassigned.merge⟩
  · exact .inr ⟨e, c, happly, hstopped.not_readable⟩

/-- Overrides that all succeed put the environment on top of the file. -/
theorem merge_of_applyEnvironment {names : List String}
    (h : file.applyEnvironment environment = (.ok names, c)) : Merge environment file c := by
  rcases merge_cases environment file with ⟨_, c', happly, hmerge⟩ | ⟨_, _, happly, -⟩
  · rw [h] at happly
    cases happly
    exact hmerge
  · rw [h] at happly
    cases happly

/-- Layers that can be read can be put together. -/
theorem exists_merge (h : Readable environment) (file : Config) :
    ∃ c, Merge environment file c := by
  rcases merge_cases environment file with ⟨-, c, -, hmerge⟩ | ⟨-, -, -, hnot⟩
  · exact ⟨c, hmerge⟩
  · exact absurd h hnot

/-! ## Loading -/

/-- The layer below the environment: the file, or the defaults if there is none. -/
def Layer (content : FileContent) (file : Config) : Prop :=
  (content = .missing ∧ file = {}) ∨ ∃ text, content = .text text ∧ ofYaml text = .ok file

/-- What the lower layer is: the file, or the defaults where there is none. -/
theorem base_eq_ok_iff {path : String} {content : FileContent} :
    base path content = .ok file ↔ Layer content file := by
  unfold Layer base
  cases content with
  | missing => simp [eq_comm]
  | unreadable reason => simp
  | text s => simp

/-- **What loading comes to**: the merge of the lower layer and the environment, if it keeps the
limits. -/
theorem loadLayered_eq_ok_iff_merge {path : String} {content : FileContent} :
    loadLayered path content environment = .ok c ↔
      ∃ file, Layer content file ∧ Merge environment file c ∧ c.validate = .ok () := by
  unfold loadLayered
  rw [Json.bind_eq_ok]
  apply exists_congr
  intro file
  rw [base_eq_ok_iff]
  apply and_congr_right
  intro hlayer
  -- Either the environment merges into one configuration, which is then validated, or it has an
  -- unreadable variable and no configuration is merged.
  rcases merge_cases environment file with
    ⟨names, c', happly, hmerge⟩ | ⟨e, c', happly, hnot⟩
  · rw [happly]
    show ((c'.validate >>= fun _ => pure c') = .ok c) ↔ _
    rw [Json.bind_eq_ok]
    constructor
    · rintro ⟨_, hvalid, hsame⟩
      cases hsame
      exact ⟨hmerge, hvalid⟩
    · rintro ⟨hmerge', hvalid⟩
      -- Merging is functional: the merged configuration is the one that was validated.
      obtain rfl := hmerge.unique hmerge'
      exact ⟨(), hvalid, rfl⟩
  · rw [happly]
    show ((.error e : Except Error Config) = .ok c) ↔ _
    constructor
    · intro h
      cases h
    · rintro ⟨hmerge, -⟩
      exact absurd hmerge.readable hnot

/-- An environment without variables leaves the file as it is. -/
theorem Merge.eq_of_none (hnone : ∀ k ∈ Knob.all, environment k.envVar = none)
    (h : Merge environment file c) : c = file := by
  refine Knob.eq_of_get h.1 ?_
  intro k hk
  have hc := h.2 k hk
  simp only [hnone k hk] at hc
  exact hc

/-- Without variables a configuration is loaded from the file alone. -/
theorem loadLayered_of_none (hnone : ∀ k ∈ Knob.all, environment k.envVar = none) (path : String)
    {content : FileContent} (hcontent : content ≠ .missing) :
    loadLayered path content environment = loadFile path content := by
  have hreadable : Readable environment := by
    intro k hk raw hraw
    rw [hnone k hk] at hraw
    cases hraw
  -- Apart from a missing file, both loads start from what the file holds.
  have hbase : loadFile path content = (base path content >>= fun c => do
      c.validate
      pure c) := by
    cases content with
    | missing => exact absurd rfl hcontent
    | unreadable reason => rfl
    | text s => rfl
  rw [hbase]
  unfold loadLayered
  congr 1
  funext file
  rcases merge_cases environment file with
    ⟨names, c', happly, hmerge⟩ | ⟨e, c', happly, hnot⟩
  · rw [happly, hmerge.eq_of_none hnone]
    rfl
  · exact absurd hreadable hnot

/-- **Loading in layers.** For every path, whatever stands there, and every environment:

A configuration is loaded just if there is no file, or one that can be read and decoded, and the
configuration is the merge of it, or of the defaults, with the environment, and keeps the limits.
There is one merge if every variable that is set can be read for its place, and else none. What a
file gives a place is the value at its path, or its default if there is none. If no variable of the
table is set, then a file is loaded, or refused with the same error, as it is without layers. -/
theorem loadLayered_exact (path : String) (content : FileContent) (environment : Environment) :
    (∀ c, loadLayered path content environment = .ok c ↔
      ∃ file, Layer content file ∧ Merge environment file c ∧ c.validate = .ok ()) ∧
    (∀ file, (∃ c, Merge environment file c) ↔ Readable environment) ∧
    (∀ file c c', Merge environment file c → Merge environment file c' → c = c') ∧
    (∀ text file, ofYaml text = .ok file →
      let d := Document.parse text
      (∀ k ∈ Knob.all, Gives d (d.at? d.root k.path) k.decoder (k.get {}) (k.get file)) ∧
      ∃ node place, d.at? d.root ["version"] = some node ∧
        Decoder.uint32 d place node = .ok file.version) ∧
    ((∀ k ∈ Knob.all, environment k.envVar = none) → content ≠ .missing →
      loadLayered path content environment = loadFile path content) ∧
    Setting.table = Knob.all.map Knob.setting ∧ Knob.all.length = 17 :=
  ⟨fun _ => loadLayered_eq_ok_iff_merge,
    fun file => ⟨fun ⟨_, h⟩ => h.readable, fun h => exists_merge h file⟩,
    fun _ _ _ h h' => h.unique h', fun _ _ h => given_of_ofYaml h,
    fun hnone hcontent => loadLayered_of_none hnone path hcontent, Knob.table_eq, rfl⟩

theorem eq_ok_of_toOption {ε α : Type} {x : Except ε α} {a : α} (h : x.toOption = some a) :
    x = .ok a := by
  cases x with
  | error e => cases h
  | ok a' => exact congrArg Except.ok (Option.some.inj h)

/-- A value that a file may not have is replaced, by a number, beside a list and a truth value, and
does not count; what else the file has stays. A file that may be loaded is refused with a value that
it may not have. -/
theorem loadLayered_merged :
    let low := "version: 1\nlogging:\n  level: debug\nservices:\n  heartbeat_interval_ms: 1\n"
    let plain := "version: 1\n"
    let higher : Environment := fun name =>
      if name = "MWS_HEARTBEAT_INTERVAL_MS" then some " 200 "
      else if name = "MWS_CORS_ALLOW_ORIGINS" then some "https://a , ,https://b"
      else if name = "MWS_HTTP_CHUNKING" then some "No"
      else none
    let broken : Environment := fun name => if name = "MWS_WS_PATH" then some "a/b" else none
    let file : Config := { logging := { level := "debug" }, services := ⟨1⟩ }
    let merged : Config :=
      { http := { chunkingEnabled := false, cors := ⟨["https://a", "https://b"]⟩ },
        logging := { level := "debug" }, services := ⟨200⟩ }
    (∀ c, loadFile "x" (.text low) ≠ .ok c) ∧ Merge higher file merged ∧
      loadLayered "x" (.text low) higher = .ok merged ∧
      loadFile "x" (.text plain) = .ok {} ∧ ∀ c, loadLayered "x" (.text plain) broken ≠ .ok c := by
  intro low plain higher broken file merged
  have hlow : ofYaml low = .ok file := eq_ok_of_toOption (by decide +kernel)
  have hplain : ofYaml plain = .ok {} := eq_ok_of_toOption (by decide +kernel)
  have hhigher : Merge higher file merged := by
    have happly : file.applyEnvironment higher =
        (.ok ["http.chunking_enabled", "http.cors.allow_origins",
          "services.heartbeat_interval_ms"], merged) := by
      decide +kernel
    exact merge_of_applyEnvironment happly
  have hbroken : Merge broken {} { ws := { path := "a/b" } } := by
    have happly : ({} : Config).applyEnvironment broken =
        (.ok ["ws.path"], { ws := { path := "a/b" } }) := by
      decide +kernel
    exact merge_of_applyEnvironment happly
  refine ⟨?_, hhigher, ?_, ?_, ?_⟩
  · intro c hc
    have hinvalid : file.validate.toOption = none := by decide +kernel
    obtain ⟨_, hfile, hc⟩ := Json.bind_eq_ok.mp (hc : (ofYaml low >>= _) = _)
    obtain rfl : file = _ := Except.ok.inj (hlow.symm.trans hfile)
    obtain ⟨_, hvalid, -⟩ := Json.bind_eq_ok.mp hc
    rw [hvalid] at hinvalid
    cases hinvalid
  · exact ((loadLayered_exact "x" (.text low) higher).1 _).mpr
      ⟨_, .inr ⟨low, rfl, hlow⟩, hhigher, eq_ok_of_toOption (by decide +kernel)⟩
  · show (ofYaml plain >>= _) = _
    rw [hplain]
    rfl
  · intro c hc
    obtain ⟨file, hlayer, hmerge, hvalid⟩ :=
      ((loadLayered_exact "x" (.text plain) broken).1 c).mp hc
    rcases hlayer with ⟨hmissing, -⟩ | ⟨text, htext, hfile⟩
    · cases hmissing
    · cases htext
      rw [hplain] at hfile
      cases hfile
      rw [hmerge.unique hbroken] at hvalid
      cases hvalid

end Config

end WsGateway
