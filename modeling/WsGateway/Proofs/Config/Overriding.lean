import Mathlib.Data.List.Nodup
import WsGateway.Proofs.Config.Settings

/-!
# Overriding settings

The overrides of an environment go along the table of settings and stop at the first variable that
cannot be read. What they come to is said of the places whose variable is set, in the order of the
table (`Config.given`): all of them have what their variables say and all else is as it was, or this
holds of those in front of the first one that cannot be read, which the error names
(`Config.applyAll_cases`). The first is the case just if every variable that is set can be read
(`Config.applyEnvironment_exact`).
-/

namespace WsGateway

/-- The error for a variable whose value is not of the kind of the place. -/
def Knob.fault (k : Knob) (message : String) : Error :=
  .config (k.envVar ++ " (" ++ k.setting.key ++ "): " ++ message)

/-- The variable says nothing of the kind of the place, and this is the complaint. -/
def Knob.Refuses (k : Knob) (raw message : String) : Prop :=
  (∀ v, ¬ k.Says raw v) ∧ k.read (Text.trim raw) = .error message

namespace Config

/-- Every variable that is set says something of the kind of its place. -/
def Readable (environment : Environment) : Prop :=
  ∀ k ∈ Knob.all, ∀ raw, environment k.envVar = some raw → ∃ v, k.Says raw v

/-- The places of a list whose variable is set. -/
def given (environment : Environment) (ks : List Knob) : List Knob :=
  ks.filter fun k => (environment k.envVar).isSome

/-- The places of the list have what their variables say, and nothing else has changed. -/
structure Assigned (environment : Environment) (ks : List Knob) (c c' : Config) : Prop where
  version : c'.version = c.version
  read : ∀ k ∈ ks, ∃ raw, environment k.envVar = some raw ∧ k.Says raw (k.get c')
  kept : ∀ k ∈ Knob.all, k ∉ ks → k.get c' = k.get c

variable {environment : Environment} {ks : List Knob} {k : Knob} {c c' c₁ c₂ : Config}

/-! ## The places whose variable is set -/

/-- The places that are given are those of the list whose variable is set. -/
theorem mem_given : k ∈ given environment ks ↔ k ∈ ks ∧ ∃ raw, environment k.envVar = some raw := by
  rw [given, List.mem_filter, Option.isSome_iff_exists]

theorem given_cons_of_none {rest : List Knob} (h : environment k.envVar = none) :
    given environment (k :: rest) = given environment rest :=
  List.filter_cons_of_neg (by simp [h])

theorem given_cons_of_some {raw : String} {rest : List Knob}
    (h : environment k.envVar = some raw) :
    given environment (k :: rest) = k :: given environment rest :=
  List.filter_cons_of_pos (by simp [h])

/-! ## What has been assigned -/

namespace Assigned

/-- What is assigned once more is there already. -/
theorem again (h : Assigned environment ks c c') : Assigned environment ks c' c' :=
  ⟨rfl, h.read, fun _ _ _ => rfl⟩

/-- Nothing is left open by the places and what their variables say. -/
theorem unique (h₁ : Assigned environment ks c c₁) (h₂ : Assigned environment ks c c₂) :
    c₁ = c₂ := by
  refine Knob.eq_of_get (h₁.version.trans h₂.version.symm) ?_
  intro k hk
  by_cases hmem : k ∈ ks
  · obtain ⟨raw, hraw, hread₁⟩ := h₁.read k hmem
    obtain ⟨raw', hraw', hread₂⟩ := h₂.read k hmem
    rw [hraw] at hraw'
    cases hraw'
    exact hread₁.unique hread₂
  · rw [h₁.kept k hk hmem, h₂.kept k hk hmem]

/-- One place is assigned, and then others. -/
theorem cons {raw : String} {v : k.Value} (hk : k ∈ Knob.all) (hnew : k ∉ ks)
    (hraw : environment k.envVar = some raw) (hv : k.Says raw v)
    (h : Assigned environment ks (k.set c v) c') :
    Assigned environment (k :: ks) c c' where
  version := h.version.trans (Knob.version_set k hk c v)
  read k' hk' := by
    rcases List.mem_cons.mp hk' with rfl | hk'
    · rw [h.kept k' hk hnew, k'.set_get]
      exact ⟨raw, hraw, hv⟩
    · exact h.read k' hk'
  kept k' hk' hnot := by
    rw [List.mem_cons, not_or] at hnot
    rw [h.kept k' hk' hnot.2, (Knob.independent hk hk' (Ne.symm hnot.1)).1]

end Assigned

/-! ## Overrides one after another -/

/-- **One override** assigns what its variable says, or reports why that says nothing. -/
theorem override_setting (k : Knob) (c : Config) (raw : String) :
    (∃ v, k.Says raw v ∧ c.override k.setting raw = .ok (k.set c v)) ∨
    ∃ message, k.Refuses raw message ∧
      c.override k.setting raw = .error (k.fault message) := by
  have hassign : k.setting.assign (Text.trim raw) c =
      (k.read (Text.trim raw) >>= fun v => pure (k.set c v)) := rfl
  unfold override
  rw [hassign]
  cases hread : k.read (Text.trim raw) with
  | ok v => exact .inl ⟨v, Knob.says_iff.mpr hread, rfl⟩
  | error message =>
    have hnothing : ∀ v, ¬ k.Says raw v := by
      intro v hv
      rw [Knob.says_iff.mp hv] at hread
      cases hread
    exact .inr ⟨message, ⟨hnothing, hread⟩, rfl⟩

/-- Of the places of the list, the first ones are assigned, and the error names the next one, which
cannot be read. -/
def Stopped (environment : Environment) (ks : List Knob) (c c' : Config) (e : Error) : Prop :=
  ∃ before k after raw message, ks = before ++ k :: after ∧ Assigned environment before c c' ∧
    environment k.envVar = some raw ∧ k.Refuses raw message ∧ e = k.fault message

/-- **Overrides one after another**: every place whose variable is set is assigned and named, or the
overrides stop at one. -/
theorem applyAll_cases (hmem : ∀ k ∈ ks, k ∈ Knob.all) (hnodup : ks.Nodup) (c : Config) :
    (∃ c', applyAll environment (ks.map Knob.setting) c =
        (.ok ((given environment ks).map (·.setting.key)), c') ∧
      Assigned environment (given environment ks) c c') ∨
    ∃ e c', applyAll environment (ks.map Knob.setting) c = (.error e, c') ∧
      Stopped environment (given environment ks) c c' e := by
  induction ks generalizing c with
  | nil => exact .inl ⟨c, rfl, rfl, fun _ h => absurd h List.not_mem_nil, fun _ _ _ => rfl⟩
  | cons k rest ih =>
    obtain ⟨hnew, hnodup⟩ := List.nodup_cons.mp hnodup
    obtain ⟨hk, hmem⟩ := List.forall_mem_cons.mp hmem
    rw [List.map_cons, applyAll, show k.setting.envVar = k.envVar from rfl]
    cases hvar : environment k.envVar with
    | none =>
      -- the place is passed over, and the rest starts from the same configuration
      rw [given_cons_of_none hvar]
      exact ih hmem hnodup c
    | some raw =>
      rw [given_cons_of_some hvar]
      rcases override_setting k c raw with ⟨v, hv, hset⟩ | ⟨message, hbad, herror⟩
      · simp only [hset]
        have hcons : ∀ {ks c'}, (∀ k' ∈ ks, k' ∈ given environment rest) →
            Assigned environment ks (k.set c v) c' → Assigned environment (k :: ks) c c' :=
          fun hsub h => h.cons hk (fun hk' => hnew (mem_given.mp (hsub k hk')).1) hvar hv
        rcases ih hmem hnodup (k.set c v) with
          ⟨c', happly, hassigned⟩ | ⟨e, c', happly, before, k', after, raw', message, hsplit,
            hassigned, hraw', hbad, rfl⟩
        · rw [happly]
          exact .inl ⟨c', rfl, hcons (fun _ h => h) hassigned⟩
        · have hsub : ∀ k'' ∈ before, k'' ∈ given environment rest :=
            fun k'' hk'' => hsplit ▸ List.mem_append_left _ hk''
          rw [happly, hsplit]
          exact .inr ⟨_, c', rfl, k :: before, k', after, raw', message, rfl,
            hcons hsub hassigned, hraw', hbad, rfl⟩
      · simp only [herror]
        exact .inr ⟨_, c, rfl, [], k, _, raw, message, rfl,
          ⟨rfl, fun _ h => absurd h List.not_mem_nil, fun _ _ _ => rfl⟩, hvar, hbad, rfl⟩

/-! ## The table of overrides -/

/-- No place stands in the table twice. -/
theorem nodup_all : Knob.all.Nodup :=
  List.Nodup.of_map (·.envVar) (by decide)

/-- The overrides of an environment assign every place of the table whose variable is set, or stop
at one. -/
theorem applyEnvironment_cases (environment : Environment) (c : Config) :
    (∃ c', c.applyEnvironment environment =
        (.ok ((given environment Knob.all).map (·.setting.key)), c') ∧
      Assigned environment (given environment Knob.all) c c') ∨
    ∃ e c', c.applyEnvironment environment = (.error e, c') ∧
      Stopped environment (given environment Knob.all) c c' e := by
  unfold applyEnvironment
  rw [Knob.table_eq]
  exact applyAll_cases (fun _ h => h) nodup_all c

/-- Where the overrides stop, a variable cannot be read. -/
theorem Stopped.not_readable {e : Error}
    (h : Stopped environment (given environment Knob.all) c c' e) : ¬ Readable environment := by
  obtain ⟨before, k, after, raw, message, hsplit, -, hraw, hbad, -⟩ := h
  intro hreadable
  have hk : k ∈ given environment Knob.all :=
    hsplit ▸ List.mem_append_right _ List.mem_cons_self
  obtain ⟨v, hv⟩ := hreadable k (mem_given.mp hk).1 raw hraw
  exact hbad.1 v hv

/-- Places that were all assigned had variables that could all be read. -/
theorem Assigned.readable (h : Assigned environment (given environment Knob.all) c c') :
    Readable environment := by
  intro k hk raw hraw
  obtain ⟨raw', hraw', hread⟩ := h.read k (mem_given.mpr ⟨hk, raw, hraw⟩)
  rw [hraw] at hraw'
  cases hraw'
  exact ⟨_, hread⟩

/-- **Overrides touch just what is overridden.** Take the places of the table whose variable is set,
in order. If each variable says something of the kind of its place (any text, a number in decimal
digits, a word for a truth value, or items between commas), then these places are named, they have
what their variables say, and nothing else has changed; once more, the same overrides change nothing
and name the same places. If not, the error names the variable and the key of the first one that
says nothing, and just the places in front of it are assigned. The places that are assigned and what
their variables say determine the configuration. -/
theorem applyEnvironment_exact (environment : Environment) (c : Config) :
    let set := given environment Knob.all
    let names := set.map (·.setting.key)
    (Readable environment →
      ∃ c', c.applyEnvironment environment = (.ok names, c') ∧ Assigned environment set c c' ∧
        c'.applyEnvironment environment = (.ok names, c')) ∧
    (¬ Readable environment →
      ∃ before k after raw message c', set = before ++ k :: after ∧
        (∀ k' ∈ before, ∃ raw v, environment k'.envVar = some raw ∧ k'.Says raw v) ∧
        environment k.envVar = some raw ∧ (∀ v, ¬ k.Says raw v) ∧
        k.read (Text.trim raw) = .error message ∧
        c.applyEnvironment environment =
          (.error (.config (k.envVar ++ " (" ++ k.setting.key ++ "): " ++ message)), c') ∧
        Assigned environment before c c') ∧
    (∀ ks c₁ c₂, Assigned environment ks c c₁ → Assigned environment ks c c₂ → c₁ = c₂) ∧
    Setting.table = Knob.all.map Knob.setting := by
  intro set names
  refine ⟨fun hreadable => ?_, fun hnot => ?_, fun _ _ _ h₁ h₂ => h₁.unique h₂, Knob.table_eq⟩
  · rcases applyEnvironment_cases environment c with ⟨c', happly, hassigned⟩ | ⟨e, c', -, hstopped⟩
    · refine ⟨c', happly, hassigned, ?_⟩
      -- A second pass over the result reads the same values, and assigning them again changes
      -- nothing.
      rcases applyEnvironment_cases environment c' with
        ⟨c'', hagain, hassigned'⟩ | ⟨e, c'', -, hstopped⟩
      · rw [hagain, hassigned'.unique hassigned.again]
      · exact absurd hreadable hstopped.not_readable
    · exact absurd hreadable hstopped.not_readable
  · rcases applyEnvironment_cases environment c with
      ⟨c', -, hassigned⟩ | ⟨_, c', happly, before, k, after, raw, message, hsplit, hassigned, hraw,
        hbad, rfl⟩
    · exact absurd hassigned.readable hnot
    -- The variables before the one that stopped the pass were all read.
    · have hbefore : ∀ k' ∈ before, ∃ raw v, environment k'.envVar = some raw ∧
          k'.Says raw v := by
        intro k' hk'
        obtain ⟨raw', hraw', hsaid⟩ := hassigned.read k' hk'
        exact ⟨raw', _, hraw', hsaid⟩
      exact ⟨before, k, after, raw, message, c', hsplit, hbefore, hraw, hbad.1, hbad.2, happly,
        hassigned⟩

/-- A number, a list and two truth values in any case are applied, whatever blanks stand around
them, until the last variable has a word that is no truth value. -/
theorem applyEnvironment_exact_words :
    let environment (last : String) : Environment := fun name =>
      if name = "MWS_OUTBOUND_QUEUE" then some " +007 "
      else if name = "MWS_HTTP_CHUNKING" then some "Off"
      else if name = "MWS_CORS_ALLOW_ORIGINS" then some "https://a , ,https://b"
      else if name = "MWS_LOG_FRAMES" then some last
      else none
    let start : Config := { version := 7 }
    let applied (frames : Bool) : Config :=
      { version := 7, gateway := { outboundQueue := 7 },
        http := { chunkingEnabled := false, cors := ⟨["https://a", "https://b"]⟩ },
        logging := { frames := frames } }
    let set (last : String) := given (environment last) Knob.all
    (Readable (environment "YES ") ∧
      start.applyEnvironment (environment "YES ") =
        (.ok ["gateway.outbound_queue", "http.chunking_enabled", "http.cors.allow_origins",
          "logging.frames"], applied true) ∧
      Assigned (environment "YES ") (set "YES ") start (applied true)) ∧
    ¬ Readable (environment "maybe") ∧ ∃ before k after raw, set "maybe" = before ++ k :: after ∧
      environment "maybe" k.envVar = some raw ∧ (∀ v, ¬ k.Says raw v) ∧
      start.applyEnvironment (environment "maybe") =
        (.error (.config "MWS_LOG_FRAMES (logging.frames): expected a boolean, got \"maybe\""),
          applied false) ∧
      Assigned (environment "maybe") before start (applied false) := by
  intro environment start applied set
  have hall : start.applyEnvironment (environment "YES ") =
      (.ok ["gateway.outbound_queue", "http.chunking_enabled", "http.cors.allow_origins",
        "logging.frames"], applied true) := by
    decide +kernel
  have hsome : start.applyEnvironment (environment "maybe") =
      (.error (.config "MWS_LOG_FRAMES (logging.frames): expected a boolean, got \"maybe\""),
        applied false) := by
    decide +kernel
  refine ⟨?_, ?_⟩
  · obtain ⟨hread, hstop, -⟩ := applyEnvironment_exact (environment "YES ") start
    have hreadable : Readable (environment "YES ") := by
      by_contra hnot
      obtain ⟨_, _, _, _, _, _, -, -, -, -, -, happly, -⟩ := hstop hnot
      rw [hall] at happly
      cases happly
    obtain ⟨c', happly, hassigned, -⟩ := hread hreadable
    obtain rfl : applied true = c' := congrArg Prod.snd (hall.symm.trans happly)
    exact ⟨hreadable, hall, hassigned⟩
  · obtain ⟨hread, hstop, -⟩ := applyEnvironment_exact (environment "maybe") start
    have hnot : ¬ Readable (environment "maybe") := by
      intro hreadable
      obtain ⟨_, happly, -⟩ := hread hreadable
      rw [hsome] at happly
      cases happly
    obtain ⟨before, k, after, raw, message, c', hsplit, -, hraw, hnothing, -, happly, hassigned⟩ :=
      hstop hnot
    obtain rfl : applied false = c' := congrArg Prod.snd (hsome.symm.trans happly)
    exact ⟨hnot, before, k, after, raw, hsplit, hraw, hnothing, hsome, hassigned⟩

end Config

end WsGateway
