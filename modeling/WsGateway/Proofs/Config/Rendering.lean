import WsGateway.Proofs.Config.Overriding
import WsGateway.Proofs.Text.Digits
import WsGateway.Proofs.Text.Items

/-!
# Settings that are written and read again

Each setting is written as a text that an environment can hold. A number and a truth value come back
from their texts, a text does if no blank stands at its ends, and a list does if its items can stand
between commas (`Knob.returns_of_tidy`); and what was read from any variable comes back
(`Knob.returns_of_read`). So an environment that has a configuration written out for some of the
settings makes any other agree with it there and changes nothing else
(`Config.applyEnvironment_of_renders`).
-/

namespace WsGateway

open Text (IsItem IsTrimmed)

/-! ## Values of one kind -/

namespace Setting

/-- A number that was written is read again. -/
theorem readNumber_numberText (n : UInt64) :
    readNumber (Text.trim (numberText n)) = .ok n := by
  have hlist : (numberText n).toList = Nat.toDigits 10 n.toNat := by
    rw [numberText, Nat.toString_eq_repr, Nat.toList_repr]
  have hspells : Text.SpellsNumber (numberText n).toList n.toNat := by
    rw [hlist]
    refine ⟨Nat.toDigits_ne_nil, fun c hc => ?_, Nat.ofDigitChars_toDigits (by decide) (by decide)⟩
    exact Nat.isDigit_of_mem_toDigits (by decide) (by decide) hc
  rw [hspells.trim_eq, readNumber_eq_ok_iff, hspells.writesNumber_iff]

/-- A truth value that was written is read again. -/
theorem readFlag_flagText (b : Bool) : readFlag (Text.trim (flagText b)) = .ok b := by
  cases b <;> decide +kernel

/-- The items of a list that was read can be written between commas. -/
theorem isItem_of_mem_readList {raw s : String} (h : s ∈ readList raw) : IsItem s := by
  obtain ⟨hmem, hne⟩ := List.mem_filter.mp h
  obtain ⟨piece, hpiece, rfl⟩ := List.mem_map.mp hmem
  obtain ⟨cs, hcs, rfl⟩ := List.mem_map.mp hpiece
  refine ⟨?_, Text.isTrimmed_trim _, fun hcomma => ?_⟩
  · intro hempty
    rw [hempty] at hne
    exact Bool.noConfusion hne
  · -- what is left of trimming stood in the piece, and that has no comma
    obtain ⟨before, after, hall, -, -⟩ := Text.exists_trimChars cs
    rw [Text.trim, String.toList_ofList, String.toList_ofList] at hcomma
    refine (Text.mem_splitChars.mp hcs).1 ?_
    rw [hall]
    exact List.mem_append_left _ (List.mem_append_right _ hcomma)

/-- Items come back from the text in which they stand between commas. -/
theorem readList_intercalate {items : List String} (h : ∀ s ∈ items, IsItem s) :
    readList (Text.trim (String.intercalate "," items)) = items := by
  unfold readList
  rw [(Text.isTrimmed_intercalate h).trim_eq]
  by_cases hnil : items = []
  · rw [hnil]
    rfl
  · have htrimmed : items.map Text.trim = items :=
      (List.map_congr_left fun s hs => (h s hs).trimmed.trim_eq).trans (List.map_id items)
    rw [Text.split_intercalate h hnil, htrimmed, List.filter_eq_self]
    intro s hs
    simpa using (h s hs).ne_empty

end Setting

/-! ## Values in their places -/

/-- The texts of the configuration come back from an environment: no blanks stand at their ends, and
the origins can stand between commas. -/
structure Config.Tidy (c : Config) : Prop where
  listen : IsTrimmed c.gateway.listen
  path : IsTrimmed c.ws.path
  level : IsTrimmed c.logging.level
  origins : ∀ origin ∈ c.http.cors.allowOrigins, IsItem origin

namespace Knob

/-- The value is read again as it was written. -/
def Returns (k : Knob) (v : k.Value) : Prop := k.read (Text.trim (k.write v)) = .ok v

/-- Whatever is read of a variable comes back. -/
def Rereads (k : Knob) : Prop := ∀ raw v, k.read (Text.trim raw) = .ok v → k.Returns v

section Kinds

variable {path : List String} {envVar : String}

section Text

variable {get : Config → String} {set : Config → String → Config} {h : ∀ c v, get (set c v) = v}

/-- A text without blanks at its ends comes back. -/
theorem returns_text {s : String} (hs : IsTrimmed s) : (text path envVar get set h).Returns s := by
  dsimp only [Returns, text]
  exact congrArg Except.ok hs.trim_eq

/-- What was read of a text had no blanks at its ends, so it comes back. -/
theorem rereads_text : (text path envVar get set h).Rereads := by
  intro raw v hread
  cases hread
  exact returns_text (Text.isTrimmed_trim raw)

end Text

theorem returns_number {decoder : Yaml.Decoder UInt64} {get : Config → UInt64}
    {set : Config → UInt64 → Config} {h : ∀ c v, get (set c v) = v} (n : UInt64) :
    (number path envVar decoder get set h).Returns n := by
  dsimp only [Returns, number]
  exact Setting.readNumber_numberText n

theorem returns_flag {get : Config → Bool} {set : Config → Bool → Config}
    {h : ∀ c v, get (set c v) = v} (b : Bool) : (flag path envVar get set h).Returns b := by
  dsimp only [Returns, flag]
  exact Setting.readFlag_flagText b

section Texts

variable {get : Config → List String} {set : Config → List String → Config}
  {h : ∀ c v, get (set c v) = v}

/-- A list comes back if each of its texts can be an item. -/
theorem returns_texts {items : List String} (hitems : ∀ s ∈ items, IsItem s) :
    (texts path envVar get set h).Returns items := by
  dsimp only [Returns, texts]
  exact congrArg Except.ok (Setting.readList_intercalate hitems)

theorem rereads_texts : (texts path envVar get set h).Rereads := by
  intro raw v hread
  rw [← Except.ok.inj hread]
  exact returns_texts fun s hs => Setting.isItem_of_mem_readList hs

end Texts

end Kinds

/-- Whatever is read of a variable of the table comes back. -/
theorem returns_of_read : ∀ k ∈ all, k.Rereads := by
  unfold all
  simp only [List.forall_mem_cons]
  repeat' apply And.intro
  all_goals first
    | exact rereads_text
    | exact fun _ v _ => returns_number v
    | exact fun _ v _ => returns_flag v
    | exact rereads_texts
    | exact fun _ h => absurd h List.not_mem_nil

/-- All values of a tidy configuration come back. -/
theorem returns_of_tidy {c : Config} (h : c.Tidy) : ∀ k ∈ all, k.Returns (k.get c) := by
  unfold all
  simp only [List.forall_mem_cons]
  exact ⟨returns_text h.listen, returns_number _, returns_number _, returns_number _,
    returns_flag _, returns_number _, returns_texts h.origins, returns_text h.path,
    returns_flag _, returns_number _, returns_number _, returns_number _, returns_number _,
    returns_number _, returns_text h.level, returns_flag _, returns_number _,
    fun _ h => absurd h List.not_mem_nil⟩

/-- The version is no place that a variable stands for. -/
theorem get_version : ∀ k ∈ all, ∀ c v, k.get { c with version := v } = k.get c := by
  unfold all
  simp only [List.forall_mem_cons]
  repeat' apply And.intro
  all_goals first
    | exact fun _ _ => rfl
    | exact fun _ h => absurd h List.not_mem_nil

/-- A place is known by its key. -/
theorem eq_of_key {k k' : Knob} (hk : k ∈ all) (hk' : k' ∈ all)
    (h : k.setting.key = k'.setting.key) : k = k' :=
  List.inj_on_of_nodup_map (f := fun k : Knob => k.setting.key) (by decide) hk hk' h

end Knob

namespace Config

variable {environment : Environment} {keep : String → Bool} {b c : Config}

/-- In the environment, the variables of the settings that are kept have what the configuration has,
and no other variable of the table is set. -/
def Renders (environment : Environment) (keep : String → Bool) (c : Config) : Prop :=
  ∀ s ∈ Setting.table, environment s.envVar = if keep s.key then some (s.current c) else none

/-- The environment that has a configuration written out for the settings that are kept. -/
def written (keep : String → Bool) (c : Config) : Environment := fun name =>
  (Setting.table.find? (·.envVar == name)).bind fun s =>
    if keep s.key then some (s.current c) else none

/-- What is written out is found again, as no two settings have the same variable. -/
theorem renders_written (keep : String → Bool) (c : Config) : Renders (written keep c) keep c := by
  intro s hs
  have hfound : Setting.table.find? (·.envVar == s.envVar) = some s := by
    obtain ⟨s', hs'⟩ := Option.isSome_iff_exists.mp
      (List.find?_isSome.mpr ⟨s, hs, beq_iff_eq.mpr rfl⟩ :
        (Setting.table.find? (·.envVar == s.envVar)).isSome)
    have hname : s'.envVar = s.envVar := beq_iff_eq.mp (List.find?_some hs' :)
    rw [hs', List.inj_on_of_nodup_map (f := Setting.envVar) (by decide)
      (List.mem_of_find?_eq_some hs') hs hname]
  unfold written
  rw [hfound]
  rfl

/-- What a rendered configuration puts in the variable of a place. -/
theorem Renders.envVar (h : Renders environment keep c) {k : Knob} (hk : k ∈ Knob.all) :
    environment k.envVar = if keep k.setting.key then some (k.write (k.get c)) else none :=
  h k.setting (Knob.table_eq ▸ List.mem_map_of_mem hk)

/-- The variables that are set are those of the settings that are kept, in order. -/
theorem Renders.map_given (h : Renders environment keep c) :
    (given environment Knob.all).map (·.setting.key) =
      (Setting.table.map (·.key)).filter keep := by
  have hgiven : given environment Knob.all = Knob.all.filter fun k => keep k.setting.key := by
    refine List.filter_congr fun k hk => ?_
    rw [h.envVar hk]
    split
    · next heq => exact heq.symm
    · next hne => exact (Bool.eq_false_iff.mpr hne).symm
  rw [hgiven, Knob.table_eq, List.map_map, List.filter_map]
  rfl

/-- **Overriding by what is written out**: the settings that are kept, whose values come back, are
as in the configuration that was written out, and all else is as it was. -/
theorem applyEnvironment_of_renders (h : Renders environment keep c)
    (hreturns : ∀ k ∈ Knob.all, keep k.setting.key = true → k.Returns (k.get c)) (b : Config) :
    ∃ b', b.applyEnvironment environment =
        (.ok ((Setting.table.map (·.key)).filter keep), b') ∧ b'.version = b.version ∧
      ∀ k ∈ Knob.all, k.get b' = if keep k.setting.key then k.get c else k.get b := by
  have hraw : ∀ k ∈ Knob.all, ∀ raw, environment k.envVar = some raw →
      keep k.setting.key = true ∧ k.Says raw (k.get c) := by
    intro k hk raw hraw
    rw [h.envVar hk] at hraw
    split at hraw
    · next hkeep =>
      cases hraw
      exact ⟨hkeep, Knob.says_iff.mpr (hreturns k hk hkeep)⟩
    · cases hraw
  rcases applyEnvironment_cases environment b with
    ⟨b', happly, hassigned⟩ | ⟨e, b', -, hstopped⟩
  · refine ⟨b', happly.trans (by rw [h.map_given]), hassigned.version, fun k hk => ?_⟩
    by_cases hkeep : keep k.setting.key = true
    · have hset : environment k.envVar = some (k.write (k.get c)) := by
        rw [h.envVar hk, if_pos hkeep]
      obtain ⟨raw, hvar, hread⟩ := hassigned.read k (mem_given.mpr ⟨hk, _, hset⟩)
      rw [if_pos hkeep]
      exact hread.unique (hraw k hk raw hvar).2
    · rw [if_neg hkeep]
      refine hassigned.kept k hk fun hmem => ?_
      obtain ⟨-, raw, hvar⟩ := mem_given.mp hmem
      exact hkeep (hraw k hk raw hvar).1
  -- the overrides do not stop, as all variables that are set can be read
  · refine absurd (fun k hk raw hvar => ?_) hstopped.not_readable
    exact ⟨_, (hraw k hk raw hvar).2⟩

/-- **Writing and overriding are inverse.** Let the texts of a configuration be tidy. Written out
for some of the settings, it overrides any other one there, in the order of the table, and nothing
else; written out for all, everything but the version. And after any overrides that succeeded, what
was overridden can be written out, all of it or some, and applied again without a change. -/
theorem applyEnvironment_rendered :
    (∀ (b c : Config) environment keep, c.Tidy → Renders environment keep c →
      ∃ b', b.applyEnvironment environment =
          (.ok ((Setting.table.map (·.key)).filter keep), b') ∧ b'.version = b.version ∧
        ∀ k ∈ Knob.all, k.get b' = if keep k.setting.key then k.get c else k.get b) ∧
    (∀ (b c : Config) environment, c.Tidy → Renders environment (fun _ => true) c →
      b.applyEnvironment environment =
        (.ok (Setting.table.map (·.key)), { c with version := b.version })) ∧
    ∀ (b c : Config) environment names, b.applyEnvironment environment = (.ok names, c) →
      ∀ environment' keep, (∀ key, keep key = true → key ∈ names) → Renders environment' keep c →
        c.applyEnvironment environment' = (.ok ((Setting.table.map (·.key)).filter keep), c) := by
  refine ⟨?_, ?_, ?_⟩
  · intro b c environment keep htidy hrenders
    exact applyEnvironment_of_renders hrenders (fun k hk _ => Knob.returns_of_tidy htidy k hk) b
  · intro b c environment htidy hrenders
    obtain ⟨b', happly, hversion, hget⟩ := applyEnvironment_of_renders hrenders
      (fun k hk _ => Knob.returns_of_tidy htidy k hk) b
    have hall : b' = { c with version := b.version } := by
      refine Knob.eq_of_get hversion fun k hk => ?_
      rw [hget k hk, Knob.get_version k hk c b.version, if_pos rfl]
    rw [happly, hall, List.filter_true]
  · intro b c environment names happly environment' keep hkeep hrenders
    have hreturns : ∀ k ∈ Knob.all, keep k.setting.key = true → k.Returns (k.get c) := by
      intro k hk hkept
      rcases applyEnvironment_cases environment b with
        ⟨c', happly', hassigned⟩ | ⟨e, c', happly', -⟩
      · rw [happly'] at happly
        cases happly
        -- the name is that of a place that was overridden, and no other place has it
        obtain ⟨k', hk', hname⟩ := List.mem_map.mp (hkeep _ hkept)
        obtain rfl := Knob.eq_of_key (mem_given.mp hk').1 hk hname
        obtain ⟨raw, -, hread⟩ := hassigned.read k' hk'
        exact Knob.returns_of_read k' hk raw _ (Knob.says_iff.mp hread)
      · rw [happly'] at happly
        cases happly
    obtain ⟨c', happly', hversion, hget⟩ := applyEnvironment_of_renders hrenders hreturns c
    have hsame : c' = c := by
      refine Knob.eq_of_get hversion fun k hk => ?_
      rw [hget k hk, ite_self]
    rw [happly', hsame]

/-- Two origins and a path with a blank inside take the places of other ones. -/
theorem applyEnvironment_rendered_origins :
    let c : Config :=
      { version := 7, http := { cors := ⟨["https://a", "https://b"]⟩ }, ws := { path := "x y" } }
    let b : Config := { http := { cors := ⟨[" ", "c,"]⟩ }, ws := { path := " z" } }
    c.Tidy ∧ b.applyEnvironment (written (fun _ => true) c) =
      (.ok (Setting.table.map (·.key)), { c with version := 1 }) := by
  intro c b
  have horigins : ∀ origin ∈ c.http.cors.allowOrigins, IsItem origin := by
    show ∀ origin ∈ ["https://a", "https://b"], IsItem origin
    simp only [List.forall_mem_cons]
    exact ⟨⟨by decide, by decide, by decide⟩, ⟨by decide, by decide, by decide⟩,
      fun _ h => absurd h List.not_mem_nil⟩
  have htidy : c.Tidy := ⟨by decide, by decide, by decide, horigins⟩
  exact ⟨htidy, applyEnvironment_rendered.2.1 b c _ htidy (renders_written _ c)⟩

end Config

end WsGateway
