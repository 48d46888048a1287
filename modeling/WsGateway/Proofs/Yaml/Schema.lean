import Mathlib.Data.List.Forall2
import Mathlib.Data.List.Nodup
import WsGateway.Proofs.Yaml.Fields

/-!
# Schemas of documents

A schema says of a document which names the maps at some paths may have, and what the nodes at
others must be (`Schema.Fits`). A path leads to every node that stands under its names, wherever
that is in the maps on the way (`Document.Holds`), so that the order of the pairs does not count.
The decoder of a record follows the schema that is put together from those of its fields
(`follows_record`): it reads nothing that does not fit, and everything that fits and has maps where
the schema has sections.
-/

namespace WsGateway.Yaml

variable {σ α β : Type} {d : Document} {fields : List (KeyDecoder σ)} {name : String}
  {place : Option String} {node inner : Node}

/-! ## Decoders of single nodes -/

/-- The decoder reads no map, and what it reads hangs on the node and on what aliases stand for, and
not on the place that errors name. -/
structure Plain (decoder : Decoder α) : Prop where
  read : ∀ ⦃d d' p p' node v⦄, d.resolve = d'.resolve → decoder d p node = .ok v →
    decoder d' p' node = .ok v
  noMap : ∀ ⦃d p node v pairs⦄, decoder d p node = .ok v → d.resolve node ≠ .map pairs

def Admits (decoder : Decoder α) (d : Document) (node : Node) : Prop :=
  ∃ place v, decoder d place node = .ok v

/-- A decoder that reads one scalar by its text is plain. -/
theorem plain_of_scalar {decoder : Decoder α} (value? : Scalar → Option α)
    (h : ∀ d p node v, decoder d p node = .ok v ↔
      ∃ s, d.resolve node = .scalar s ∧ value? s = some v) : Plain decoder where
  read d d' p p' node v hsame hread := by
    rw [h, ← hsame]
    exact (h d p node v).mp hread
  noMap d p node v pairs hread hmap := by
    obtain ⟨s, hs, -⟩ := (h d p node v).mp hread
    rw [hmap] at hs
    cases hs

theorem plain_string : Plain Decoder.string :=
  plain_of_scalar (fun s => some s.text) fun d p node v => by
    unfold Decoder.string
    cases d.resolve node <;> simp

theorem plain_bool : Plain Decoder.bool :=
  plain_of_scalar (fun s => if s.isOpenTo boolTag then bool? s.text else none) fun d p node v => by
    unfold Decoder.bool
    cases d.resolve node with
    | scalar s =>
      simp only [Node.scalar.injEq, exists_eq_left']
      split <;> simp [*]
    | _ => simp

theorem plain_uint64 (expected : String) : Plain (Decoder.uint64 expected) :=
  plain_of_scalar (fun s => (if s.isOpenTo intTag then uint64? s.text else none).map UInt64.ofNat)
    fun d p node v => by
      unfold Decoder.uint64
      cases d.resolve node with
      | scalar s =>
        simp only [Node.scalar.injEq, exists_eq_left']
        split <;> simp [*]
      | _ => simp

theorem plain_uint32 : Plain Decoder.uint32 where
  read d d' p p' node v hsame h := by
    obtain ⟨n, hn, hv⟩ := Json.bind_eq_ok.mp h
    refine Json.bind_eq_ok.mpr ⟨n, (plain_uint64 _).read hsame hn, ?_⟩
    split at hv
    · next hroom =>
      rw [if_pos hroom]
      exact hv
    · cases hv
  noMap d p node v pairs h := by
    obtain ⟨n, hn, -⟩ := Json.bind_eq_ok.mp h
    exact (plain_uint64 _).noMap hn

/-- A list of plain items is plain. -/
theorem plain_list {item : Decoder α} (hitem : Plain item) : Plain (Decoder.list item) where
  read d d' p p' node v hsame h := by
    -- Item by item: only the place, which the messages mention, differs between the two runs.
    have hitems : ∀ nodes index as, Decoder.itemsFrom item d p index nodes = .ok as →
        Decoder.itemsFrom item d' p' index nodes = .ok as := by
      intro nodes
      induction nodes with
      | nil => exact fun _ _ h => h
      | cons node rest ih =>
        intro index as h
        obtain ⟨a, ha, h⟩ := Json.bind_eq_ok.mp h
        obtain ⟨as', has, h⟩ := Json.bind_eq_ok.mp h
        exact Json.bind_eq_ok.mpr
          ⟨a, hitem.read hsame ha, Json.bind_eq_ok.mpr ⟨as', ih _ _ has, h⟩⟩
    unfold Decoder.list at h ⊢
    rw [← hsame]
    split at h
    · exact hitems _ _ _ h
    · exact h
    · split at h
      · next hempty =>
        rw [if_pos hempty]
        exact h
      · cases h
    · cases h
  noMap d p node v pairs h hmap := by
    unfold Decoder.list at h
    simp only [hmap] at h
    cases h

/-! ## Keys of a map -/

/-- The text of a key, if it is one. -/
def Document.keyText? (d : Document) (key : Node) : Option String :=
  match d.resolve key with
  | .scalar s => some s.text
  | _ => none

def Document.keys (d : Document) (pairs : List (Node × Node)) : List (Option String) :=
  pairs.map fun pair => d.keyText? pair.1

/-- Every key of the map is one of the names, and no key is there twice. -/
structure Strict (d : Document) (names : List String) (pairs : List (Node × Node)) : Prop where
  known : ∀ key ∈ d.keys pairs, ∃ name ∈ names, key = some name
  nodup : (d.keys pairs).Nodup

/-- A key has the text of the scalar it resolves to. -/
theorem keyText?_eq_some_iff {key : Node} :
    d.keyText? key = some name ↔ ∃ s, d.resolve key = .scalar s ∧ s.text = name := by
  unfold Document.keyText?
  cases d.resolve key <;> simp

@[simp] theorem keyText?_scalar (s : Scalar) : d.keyText? (.scalar s) = some s.text := rfl

theorem findPair?_cons (key value : Node) (rest : List (Node × Node)) :
    d.findPair? name ((key, value) :: rest) =
      if d.keyText? key = some name then some value else d.findPair? name rest := by
  unfold Document.keyText?
  rw [Document.findPair?]
  cases d.resolve key <;> simp

theorem mem_keys {pairs : List (Node × Node)} {pair : Node × Node} (h : pair ∈ pairs) :
    d.keyText? pair.1 ∈ d.keys pairs :=
  List.mem_map_of_mem (f := fun pair : Node × Node => d.keyText? pair.1) h

/-- The first pair with a name is a pair with the name. -/
theorem mem_of_findPair? {pairs : List (Node × Node)} {value : Node}
    (h : d.findPair? name pairs = some value) :
    ∃ key, (key, value) ∈ pairs ∧ d.keyText? key = some name := by
  induction pairs with
  | nil => cases h
  | cons pair rest ih =>
    obtain ⟨key, first⟩ := pair
    rw [findPair?_cons] at h
    split at h
    · next hkey =>
      cases h
      exact ⟨key, List.mem_cons_self, hkey⟩
    · obtain ⟨key', hmem, hkey'⟩ := ih h
      exact ⟨key', List.mem_cons_of_mem _ hmem, hkey'⟩

/-- If no key is there twice, a pair with a name is the first one. -/
theorem findPair?_of_mem {pairs : List (Node × Node)} {key value : Node}
    (hnodup : (d.keys pairs).Nodup) (hmem : (key, value) ∈ pairs)
    (hkey : d.keyText? key = some name) : d.findPair? name pairs = some value := by
  induction pairs with
  | nil => exact absurd hmem List.not_mem_nil
  | cons pair rest ih =>
    obtain ⟨first, _⟩ := pair
    obtain ⟨hnew, hrest⟩ := List.nodup_cons.mp hnodup
    rw [findPair?_cons]
    rcases List.mem_cons.mp hmem with heq | hmem
    · cases heq
      rw [if_pos hkey]
    -- The keys do not repeat, so no pair before this one has its name.
    · have hne : d.keyText? first ≠ some name := by
        intro hfirst
        have hagain : d.keyText? first ∈ d.keys rest := (hfirst.trans hkey.symm) ▸ mem_keys hmem
        exact hnew hagain
      rw [if_neg hne]
      exact ih hrest hmem

/-! ## The pairs of a map, as fields -/

/-- A map is read only if it is strict, and each of its pairs is read by the field of its name. -/
theorem strict_of_readFields {pairs : List (Node × Node)} {seen seen' : List String} {s s' : σ}
    (h : readFields fields d place seen s pairs = .ok (s', seen')) :
    Strict d (fields.map KeyDecoder.name) pairs ∧
      (∀ pair ∈ pairs, ∀ n ∈ seen, d.keyText? pair.1 ≠ some n) ∧
      ∀ pair ∈ pairs, ∃ f ∈ fields, d.keyText? pair.1 = some f.name ∧
        ∃ p s₁ s₂, f.read d p pair.2 s₁ = .ok s₂ := by
  -- the names that were seen grow along the pairs, and none of them is read again
  induction pairs generalizing seen s with
  | nil =>
    exact ⟨⟨fun _ h => absurd h List.not_mem_nil, List.nodup_nil⟩,
      fun _ h => absurd h List.not_mem_nil, fun _ h => absurd h List.not_mem_nil⟩
  | cons pair rest ih =>
    obtain ⟨key, value⟩ := pair
    obtain ⟨k, f, p, s₁, hkey, hf, hname, hnew, hread, hrest⟩ := readFields_cons h
    obtain ⟨hstrict, hseen, hfields⟩ := ih hrest
    have htext : d.keyText? key = some k.text := keyText?_eq_some_iff.mpr ⟨k, hkey, rfl⟩
    refine ⟨⟨?_, ?_⟩, ?_, ?_⟩
    · exact List.forall_mem_cons.mpr
        ⟨⟨k.text, hname ▸ List.mem_map_of_mem hf, htext⟩, hstrict.known⟩
    · refine List.nodup_cons.mpr ⟨fun hmem => ?_, hstrict.nodup⟩
      obtain ⟨pair, hpair, heq⟩ := List.mem_map.mp hmem
      exact hseen pair hpair k.text List.mem_cons_self (heq.trans htext)
    · refine List.forall_mem_cons.mpr ⟨fun n hn hkeyn => ?_, fun pair hpair n hn =>
        hseen pair hpair n (List.mem_cons_of_mem _ hn)⟩
      rw [htext] at hkeyn
      exact hnew (Option.some.inj hkeyn ▸ hn)
    · exact List.forall_mem_cons.mpr ⟨⟨f, hf, hname ▸ htext, p, s, s₁, hread⟩, hfields⟩

/-- A strict map is read if each of its pairs is, by every field of its name. -/
theorem exists_readFields {pairs : List (Node × Node)}
    (hstrict : Strict d (fields.map KeyDecoder.name) pairs)
    (hread : ∀ pair ∈ pairs, ∀ f ∈ fields, d.keyText? pair.1 = some f.name →
      ∀ p s, ∃ s', f.read d p pair.2 s = .ok s')
    (place : Option String) (seen : List String) (s : σ)
    (hseen : ∀ pair ∈ pairs, ∀ n ∈ seen, d.keyText? pair.1 ≠ some n) :
    ∃ r, readFields fields d place seen s pairs = .ok r := by
  induction pairs generalizing seen s with
  | nil => exact ⟨_, rfl⟩
  | cons pair rest ih =>
    obtain ⟨key, value⟩ := pair
    obtain ⟨hknown, hknown'⟩ := List.forall_mem_cons.mp hstrict.known
    obtain ⟨hnew, hnodup⟩ := List.nodup_cons.mp hstrict.nodup
    obtain ⟨hfirst, hlater⟩ := List.forall_mem_cons.mp hread
    obtain ⟨hfree, hfree'⟩ := List.forall_mem_cons.mp hseen
    obtain ⟨n, hn, htext⟩ := hknown
    obtain ⟨k, hkey, rfl⟩ := keyText?_eq_some_iff.mp htext
    obtain ⟨f, hf, hname⟩ := List.mem_map.mp hn
    -- of the fields with the name, the first one reads the pair
    obtain ⟨g, hg⟩ := Option.isSome_iff_exists.mp
      (List.find?_isSome.mpr ⟨f, hf, beq_iff_eq.mpr hname⟩ :
        (fields.find? (·.name == k.text)).isSome)
    have hgname : g.name = k.text := beq_iff_eq.mp (List.find?_some hg :)
    have hunseen : seen.contains g.name = false := by
      rw [Bool.eq_false_iff, Ne, List.contains_iff_mem]
      exact fun hmem => hfree _ hmem (hgname ▸ htext)
    unfold readFields
    simp only [hkey, hg, hunseen, Bool.false_eq_true, if_false]
    obtain ⟨s₁, hs₁⟩ := hfirst g (List.mem_of_find?_eq_some hg) (hgname ▸ htext) _ s
    rw [hs₁]
    refine ih ⟨hknown', hnodup⟩ hlater _ _ fun pair hpair n hn => ?_
    rcases List.mem_cons.mp hn with rfl | hn
    · intro hpairname
      refine hnew (List.mem_map.mpr ⟨pair, hpair, hpairname.trans ?_⟩)
      rw [hgname]
      exact htext.symm
    · exact hfree' pair hpair n hn

/-- A name that is given is reported as given. -/
theorem mem_seen_of_mem {pairs : List (Node × Node)} {seen seen' : List String} {s s' : σ}
    (h : readFields fields d place seen s pairs = .ok (s', seen'))
    (hname : name ∈ seen ∨ some name ∈ d.keys pairs) : name ∈ seen' := by
  induction pairs generalizing seen s with
  | nil =>
    cases h
    exact hname.resolve_right List.not_mem_nil
  | cons pair rest ih =>
    obtain ⟨key, value⟩ := pair
    obtain ⟨k, f, p, s₁, hkey, -, -, -, -, hrest⟩ := readFields_cons h
    have htext : d.keyText? key = some k.text := keyText?_eq_some_iff.mpr ⟨k, hkey, rfl⟩
    refine ih hrest ?_
    rcases hname with hmem | hmem
    · exact .inl (List.mem_cons_of_mem _ hmem)
    · rcases List.mem_cons.mp hmem with heq | hmem
      · exact .inl (Option.some.inj (heq.trans htext) ▸ List.mem_cons_self)
      · exact .inr hmem

/-! ## Paths -/

namespace Document

/-- The node is a map that has the other one under the name. -/
def Has (d : Document) (node : Node) (name : String) (inner : Node) : Prop :=
  ∃ pairs key, d.resolve node = .map pairs ∧ (key, inner) ∈ pairs ∧ d.keyText? key = some name

/-- The path leads from the node to the other one. -/
def Holds (d : Document) (node : Node) : List String → Node → Prop
  | [], inner => node = inner
  | name :: rest, inner => ∃ next, d.Has node name next ∧ d.Holds next rest inner

/-- Wherever the paths lead, it has the property. -/
def Everywhere (d : Document) (node : Node) (paths : List (List String × β))
    (P : β → Node → Prop) : Prop :=
  ∀ x ∈ paths, ∀ inner, d.Holds node x.1 inner → P x.2 inner

end Document

@[simp] theorem not_has_nil : ¬ d.Has (.map []) name inner := by
  rintro ⟨pairs, key, hpairs, hmem, -⟩
  cases hpairs
  exact absurd hmem List.not_mem_nil

@[simp] theorem has_cons {key value : Node} {rest : List (Node × Node)} :
    d.Has (.map ((key, value) :: rest)) name inner ↔
      (d.keyText? key = some name ∧ value = inner) ∨ d.Has (.map rest) name inner := by
  constructor
  · rintro ⟨pairs, key', hpairs, hmem, hkey⟩
    cases hpairs
    rcases List.mem_cons.mp hmem with heq | hmem
    · cases heq
      exact .inl ⟨hkey, rfl⟩
    · exact .inr ⟨rest, key', rfl, hmem, hkey⟩
  · rintro (⟨hkey, rfl⟩ | ⟨pairs, key', hpairs, hmem, hkey⟩)
    · exact ⟨_, key, rfl, List.mem_cons_self, hkey⟩
    · cases hpairs
      exact ⟨_, key', rfl, List.mem_cons_of_mem _ hmem, hkey⟩

/-- A node that the document has at a path is held there. -/
theorem holds_of_at? {path : List String} (h : d.at? node path = some inner) :
    d.Holds node path inner := by
  induction path generalizing node with
  | nil => exact Option.some.inj h
  | cons name rest ih =>
    obtain ⟨next, hnext, hrest⟩ := Option.bind_eq_some_iff.mp h
    refine ⟨next, ?_, ih hrest⟩
    unfold Document.find? at hnext
    split at hnext
    · next pairs hpairs =>
      obtain ⟨key, hmem, hkey⟩ := mem_of_findPair? hnext
      exact ⟨pairs, key, hpairs, hmem, hkey⟩
    · cases hnext

/-- Where no key is there twice on the way, a path leads to one node. -/
theorem at?_of_holds {path : List String}
    (hnodup : ∀ front name rest, path = front ++ name :: rest → ∀ inner pairs,
      d.Holds node front inner → d.resolve inner = .map pairs → (d.keys pairs).Nodup)
    (h : d.Holds node path inner) : d.at? node path = some inner := by
  induction path generalizing node with
  | nil => exact congrArg some h
  | cons name rest ih =>
    obtain ⟨next, ⟨pairs, key, hpairs, hmem, hkey⟩, hrest⟩ := h
    have hfind : d.find? node name = some next := by
      unfold Document.find?
      simp only [hpairs]
      exact findPair?_of_mem (hnodup [] name rest rfl node pairs rfl hpairs) hmem hkey
    refine Option.bind_eq_some_iff.mpr ⟨next, hfind, ih ?_ hrest⟩
    -- what is on the way from the next node is on the way from this one
    rintro front name' rest' rfl inner pairs' hinner hpairs'
    exact hnodup (name :: front) name' rest' rfl inner pairs'
      ⟨next, ⟨pairs, key, hpairs, hmem, hkey⟩, hinner⟩ hpairs'

/-! ## Schemas -/

/-- Where a document has maps, with the names that they may have, and where it has other nodes, with
what these must be. -/
structure Schema where
  sections : List (List String × List String)
  leaves : List (List String × (Document → Node → Prop))

namespace Schema

def of (decoder : Decoder α) : Schema := ⟨[], [([], Admits decoder)]⟩

/-- A map with the names of the parts, each with what its schema says. -/
def record (parts : List (String × Schema)) : Schema where
  sections := ([], parts.map Prod.fst) ::
    parts.flatMap fun p => p.2.sections.map fun x => (p.1 :: x.1, x.2)
  leaves := parts.flatMap fun p => p.2.leaves.map fun x => (p.1 :: x.1, x.2)

/-- Where the schema has sections, the document has maps. -/
def Mapped (o : Schema) (d : Document) (node : Node) : Prop :=
  d.Everywhere node o.sections fun _ inner => ∃ pairs, d.resolve inner = .map pairs

/-- The maps are strict. -/
def Tight (o : Schema) (d : Document) (node : Node) : Prop :=
  d.Everywhere node o.sections fun names inner =>
    ∀ pairs, d.resolve inner = .map pairs → Strict d names pairs

/-- The maps are strict, and the other nodes are what they must be. -/
structure Fits (o : Schema) (d : Document) (node : Node) : Prop where
  tight : o.Tight d node
  leaf : d.Everywhere node o.leaves fun P inner => P d inner

variable {o : Schema} {parts : List (String × Schema)}

theorem everywhere_parts (places : String × Schema → List (List String × β))
    {P : β → Node → Prop} :
    d.Everywhere node (parts.flatMap fun p => (places p).map fun x => (p.1 :: x.1, x.2)) P ↔
      ∀ p ∈ parts, ∀ found, d.Has node p.1 found → d.Everywhere found (places p) P := by
  constructor
  · intro h p hp found hfound x hx inner hinner
    exact h (p.1 :: x.1, x.2) (List.mem_flatMap.mpr ⟨p, hp, List.mem_map.mpr ⟨x, hx, rfl⟩⟩) inner
      ⟨found, hfound, hinner⟩
  · intro h x hx inner hinner
    obtain ⟨p, hp, hx⟩ := List.mem_flatMap.mp hx
    obtain ⟨y, hy, rfl⟩ := List.mem_map.mp hx
    obtain ⟨found, hfound, hinner⟩ := hinner
    exact h p hp found hfound y hy inner hinner

theorem everywhere_cons {names : β} {rest : List (List String × β)} {P : β → Node → Prop} :
    d.Everywhere node (([], names) :: rest) P ↔ P names node ∧ d.Everywhere node rest P := by
  unfold Document.Everywhere
  rw [List.forall_mem_cons]
  apply and_congr_left'
  exact ⟨fun h => h node rfl, fun h inner (hinner : node = inner) => hinner ▸ h⟩

theorem mapped_record : (record parts).Mapped d node ↔
    (∃ pairs, d.resolve node = .map pairs) ∧
      ∀ p ∈ parts, ∀ found, d.Has node p.1 found → p.2.Mapped d found :=
  everywhere_cons.trans (and_congr_right fun _ => everywhere_parts fun p => p.2.sections)

@[simp] theorem mapped_of {decoder : Decoder α} : (of decoder).Mapped d node :=
  fun _ hx => absurd hx List.not_mem_nil

/-- A node fits a record just if its keys are strict and every part fits. -/
theorem fits_record : (record parts).Fits d node ↔
    (∀ pairs, d.resolve node = .map pairs → Strict d (parts.map Prod.fst) pairs) ∧
      ∀ p ∈ parts, ∀ found, d.Has node p.1 found → p.2.Fits d found := by
  constructor
  · rintro ⟨htight, hleaf⟩
    obtain ⟨hown, hparts⟩ := everywhere_cons.mp htight
    refine ⟨hown, fun p hp found hfound => ⟨?_, ?_⟩⟩
    · exact (everywhere_parts fun p => p.2.sections).mp hparts p hp found hfound
    · exact (everywhere_parts fun p => p.2.leaves).mp hleaf p hp found hfound
  · rintro ⟨hown, hparts⟩
    refine ⟨everywhere_cons.mpr ⟨hown, ?_⟩, ?_⟩
    · exact (everywhere_parts fun p => p.2.sections).mpr fun p hp found hfound =>
        (hparts p hp found hfound).tight
    · exact (everywhere_parts fun p => p.2.leaves).mpr fun p hp found hfound =>
        (hparts p hp found hfound).leaf

/-- A node fits a leaf just if its decoder admits it. -/
theorem fits_of {decoder : Decoder α} : (of decoder).Fits d node ↔ Admits decoder d node := by
  constructor
  · exact fun h => h.leaf _ (List.mem_singleton_self _) node rfl
  · exact fun h => ⟨fun _ hx => absurd hx List.not_mem_nil,
      everywhere_cons.mpr ⟨h, fun _ hx => absurd hx List.not_mem_nil⟩⟩

end Schema

/-! ## Decoders that follow a schema -/

/-- The decoder reads only what fits the schema, and all that fits and has maps for sections. -/
structure Follows (decoder : Decoder α) (o : Schema) : Prop where
  fits : ∀ ⦃d place node v⦄, decoder d place node = .ok v → o.Fits d node
  admits : ∀ ⦃d node⦄, o.Mapped d node → o.Fits d node →
    ∀ place, ∃ v, decoder d place node = .ok v

/-- So does the field of a record. -/
structure KeyDecoder.Follows (f : KeyDecoder σ) (o : Schema) : Prop where
  fits : ∀ ⦃d place node s s'⦄, f.read d place node s = .ok s' → o.Fits d node
  admits : ∀ ⦃d node⦄, o.Mapped d node → o.Fits d node →
    ∀ place s, ∃ s', f.read d place node s = .ok s'

/-- A plain decoder follows its own leaf. -/
theorem follows_of {decoder : Decoder α} (hplain : Plain decoder) :
    Follows decoder (.of decoder) where
  fits _ _ _ _ h := Schema.fits_of.mpr ⟨_, _, h⟩
  admits _ _ _ h place := by
    obtain ⟨p, v, hv⟩ := Schema.fits_of.mp h
    exact ⟨v, hplain.read rfl hv⟩

theorem Follows.field {decoder : Decoder α} {o : Schema} (h : Follows decoder o) (name : String)
    (set : σ → α → σ) : (field name decoder set).Follows o where
  fits _ _ _ _ _ hread := by
    obtain ⟨v, hv, -⟩ := read_field hread
    exact h.fits hv
  admits _ _ hmapped hfits place s := by
    obtain ⟨v, hv⟩ := h.admits hmapped hfits place
    exact ⟨set s v, Json.bind_eq_ok.mpr ⟨v, hv, rfl⟩⟩

/-- The fields of a record and the parts of a schema go together. -/
def Parallel (fields : List (KeyDecoder σ)) (parts : List (String × Schema)) : Prop :=
  List.Forall₂ (fun f p => f.name = p.1 ∧ f.Follows p.2) fields parts

namespace Parallel

variable {parts : List (String × Schema)}

theorem names (h : Parallel fields parts) :
    fields.map KeyDecoder.name = parts.map Prod.fst := by
  induction h with
  | nil => rfl
  | cons hone _ ih => rw [List.map_cons, List.map_cons, hone.1, ih]

/-- Every field has its part of the schema. -/
theorem exists_part (h : Parallel fields parts) {f : KeyDecoder σ} (hf : f ∈ fields) :
    ∃ p ∈ parts, f.name = p.1 ∧ f.Follows p.2 := by
  induction h with
  | nil => exact absurd hf List.not_mem_nil
  | cons hone _ ih =>
    rcases List.mem_cons.mp hf with rfl | hf
    · exact ⟨_, List.mem_cons_self, hone⟩
    · obtain ⟨p, hp, hpart⟩ := ih hf
      exact ⟨p, List.mem_cons_of_mem _ hp, hpart⟩

end Parallel

section Records

variable {parts : List (String × Schema)} {label : String} {start : σ}

/-- A record that is read fits its schema. -/
theorem fits_of_readRecord (h : Parallel fields parts) (hnodup : (parts.map Prod.fst).Nodup)
    {s : σ} {seen : List String}
    (hread : readRecord label fields start d place node = .ok (s, seen)) :
    (Schema.record parts).Fits d node := by
  rw [Schema.fits_record, ← h.names]
  by_cases hmap : ∃ pairs, d.resolve node = .map pairs
  · obtain ⟨pairs, hpairs⟩ := hmap
    have hfields : readFields fields d place [] start pairs = .ok (s, seen) := by
      unfold readRecord at hread
      simpa only [hpairs] using hread
    obtain ⟨hstrict, -, hfields⟩ := strict_of_readFields hfields
    refine ⟨fun pairs' hpairs' => ?_, ?_⟩
    · rw [hpairs] at hpairs'
      cases hpairs'
      exact hstrict
    · rintro p hp found ⟨pairs', key, hpairs', hmem, hkey⟩
      rw [hpairs] at hpairs'
      cases hpairs'
      obtain ⟨f, hf, hname, p', s₁, s₂, hone⟩ := hfields _ hmem
      obtain ⟨part, hpart, hsame, hfollows⟩ := h.exists_part hf
      -- the parts have different names
      have heq : part.1 = p.1 := hsame.symm.trans (Option.some.inj (hname.symm.trans hkey))
      rw [← List.inj_on_of_nodup_map hnodup hpart hp heq]
      exact hfollows.fits hone
  -- nothing stands under a node that is not a map
  · exact ⟨fun pairs hpairs => absurd ⟨pairs, hpairs⟩ hmap,
      fun p _ found ⟨pairs, _, hpairs, _⟩ => absurd ⟨pairs, hpairs⟩ hmap⟩

/-- What fits is read, and all names that it has are reported as given. -/
theorem exists_readRecord (h : Parallel fields parts)
    (hmapped : (Schema.record parts).Mapped d node) (hfits : (Schema.record parts).Fits d node)
    (label : String) (start : σ) (place : Option String) :
    ∃ s seen, readRecord label fields start d place node = .ok (s, seen) ∧
      ∀ name inner, d.Has node name inner → name ∈ seen := by
  obtain ⟨⟨pairs, hpairs⟩, hmapped⟩ := Schema.mapped_record.mp hmapped
  obtain ⟨hstrict, hfits⟩ := Schema.fits_record.mp hfits
  have hread : ∀ pair ∈ pairs, ∀ f ∈ fields, d.keyText? pair.1 = some f.name →
      ∀ p s, ∃ s', f.read d p pair.2 s = .ok s' := by
    intro pair hpair f hf hname
    obtain ⟨part, hpart, hsame, hfollows⟩ := h.exists_part hf
    have hfound : d.Has node part.1 pair.2 := ⟨pairs, pair.1, hpairs, hpair, hsame ▸ hname⟩
    exact hfollows.admits (hmapped part hpart _ hfound) (hfits part hpart _ hfound)
  obtain ⟨⟨s, seen⟩, hfields⟩ := exists_readFields (h.names ▸ hstrict pairs hpairs) hread place []
    start fun _ _ _ hn => absurd hn List.not_mem_nil
  refine ⟨s, seen, ?_, ?_⟩
  · unfold readRecord
    simpa only [hpairs] using hfields
  · rintro name inner ⟨pairs', key, hpairs', hmem, hkey⟩
    rw [hpairs] at hpairs'
    cases hpairs'
    exact mem_seen_of_mem hfields (.inr (hkey ▸ mem_keys hmem))

/-- **Records follow their schemas**: those that are put together from the schemas of their
fields. -/
theorem follows_record (h : Parallel fields parts) (hnodup : (parts.map Prod.fst).Nodup)
    (label : String) (start : σ) : Follows (record label fields start) (.record parts) where
  fits d place node s hread := by
    obtain ⟨⟨s, seen⟩, hrecord, -⟩ := Json.bind_eq_ok.mp hread
    exact fits_of_readRecord h hnodup hrecord
  admits d node hmapped hfits place := by
    obtain ⟨s, seen, hrecord, -⟩ := exists_readRecord h hmapped hfits label start place
    exact ⟨s, Json.bind_eq_ok.mpr ⟨(s, seen), hrecord, rfl⟩⟩

end Records

end WsGateway.Yaml
