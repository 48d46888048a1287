import WsGateway.Proofs.Json.Locality.Scalars
import WsGateway.Yaml.Decoder

/-!
# What a document gives to a record

A document gives a value for a name if a map in it has a pair with that name (`Document.find?`), and
for a path if it does so name by name (`Document.at?`). A record that was read has in each field
what is given for it, as the field's decoder reads it, and what it started out with if nothing is
given (`readRecord_gives`). The same holds of records in records along their paths (`Slot.nested`).

All that is used of a list of fields is that a field is read by its decoder and that the others
leave it alone (`Slot`).
-/

namespace WsGateway.Yaml

namespace Document

/-- The node that the first pair with the name has. -/
def findPair? (d : Document) (name : String) : List (Node × Node) → Option Node
  | [] => none
  | (key, node) :: rest =>
    match d.resolve key with
    | .scalar s => if s.text = name then some node else d.findPair? name rest
    | _ => d.findPair? name rest

/-- What is given for a name in a node, if that is a map. -/
def find? (d : Document) (node : Node) (name : String) : Option Node :=
  match d.resolve node with
  | .map pairs => d.findPair? name pairs
  | _ => none

/-- What is given for a path in a node. -/
def at? (d : Document) (node : Node) : List String → Option Node
  | [] => some node
  | name :: rest => (d.find? node name).bind fun inner => d.at? inner rest

end Document

variable {σ τ α β : Type} {d : Document} {fields : List (KeyDecoder σ)} {name : String}
  {get : σ → α} {decoder : Decoder α} {s s' : σ} {place : Option String}

/-- The value is what is read of a node, or the one that stands for nothing given. -/
def Gives (d : Document) (given : Option Node) (decoder : Decoder α) (default value : α) : Prop :=
  match given with
  | some node => ∃ place, decoder d place node = .ok value
  | none => value = default

/-! ## Fields and their neighbours -/

/-- In a record of the fields, the name is read by the decoder, and all others leave it alone. -/
structure Slot (fields : List (KeyDecoder σ)) (name : String) (get : σ → α)
    (decoder : Decoder α) : Prop where
  own : ∀ f ∈ fields, f.name = name → ∀ {d place node s s'}, f.read d place node s = .ok s' →
    decoder d place node = .ok (get s')
  other : ∀ f ∈ fields, f.name ≠ name → ∀ {d place node s s'}, f.read d place node s = .ok s' →
    get s' = get s

/-- A field that is read has its decoder's value. -/
theorem read_field {n : String} {other : Decoder β} {set : σ → β → σ} {node : Node}
    (h : (field n other set).read d place node s = .ok s') :
    ∃ v, other d place node = .ok v ∧ s' = set s v := by
  obtain ⟨v, hv, hs⟩ := Json.bind_eq_ok.mp h
  cases hs
  exact ⟨v, hv, rfl⟩

theorem Slot.nil : Slot (σ := σ) [] name get decoder where
  own _ hf := absurd hf List.not_mem_nil
  other _ hf := absurd hf List.not_mem_nil

/-- The first field of a record is its own slot. -/
theorem Slot.self {set : σ → α → σ} (h : Slot fields name get decoder)
    (hget : ∀ s v, get (set s v) = v) :
    Slot (field name decoder set :: fields) name get decoder where
  own f hf hname := by
    intro d place node s s' hread
    rcases List.mem_cons.mp hf with rfl | hf
    · obtain ⟨v, hv, rfl⟩ := read_field hread
      rw [hv, hget]
    · exact h.own f hf hname hread
  other f hf hname := by
    intro d place node s s' hread
    rcases List.mem_cons.mp hf with rfl | hf
    · exact absurd rfl hname
    · exact h.other f hf hname hread

/-- A field of another name leaves a slot alone. -/
theorem Slot.beside {n : String} {other : Decoder β} {set : σ → β → σ}
    (h : Slot fields name get decoder) (hne : n ≠ name) (hget : ∀ s v, get (set s v) = get s) :
    Slot (field n other set :: fields) name get decoder where
  own f hf hname := by
    intro d place node s s' hread
    rcases List.mem_cons.mp hf with rfl | hf
    · exact absurd hname hne
    · exact h.own f hf hname hread
  other f hf hname := by
    intro d place node s s' hread
    rcases List.mem_cons.mp hf with rfl | hf
    · obtain ⟨v, -, rfl⟩ := read_field hread
      exact hget s v
    · exact h.other f hf hname hread

/-! ## One record -/

/-- One more pair is read: its key is the name of a field that was not given yet, and the field
takes the node. -/
theorem readFields_cons {key node : Node} {rest : List (Node × Node)} {seen seen' : List String}
    (h : readFields fields d place seen s ((key, node) :: rest) = .ok (s', seen')) :
    ∃ k f p s₁, d.resolve key = .scalar k ∧ f ∈ fields ∧ f.name = k.text ∧ k.text ∉ seen ∧
      f.read d p node s = .ok s₁ ∧
      readFields fields d place (k.text :: seen) s₁ rest = .ok (s', seen') := by
  unfold readFields at h
  -- A key is read if it is a scalar, names a field and has not been seen.
  split at h
  · next k hkey =>
    split at h
    · cases h
    · next f hfind =>
      have hname : f.name = k.text := by simpa using List.find?_some hfind
      split at h
      · cases h
      · next hseen =>
        rw [hname] at h hseen
        obtain ⟨s₁, hread, hrest⟩ := Json.bind_eq_ok.mp h
        exact ⟨k, f, _, s₁, hkey, List.mem_of_find?_eq_some hfind, hname, by simpa using hseen,
          hread, hrest⟩
  · cases h

/-- What was given already is not given again. -/
theorem findPair?_of_seen {pairs : List (Node × Node)} {seen seen' : List String}
    (h : readFields fields d place seen s pairs = .ok (s', seen')) (hseen : name ∈ seen) :
    d.findPair? name pairs = none := by
  induction pairs generalizing seen s with
  | nil => rfl
  | cons pair rest ih =>
    obtain ⟨key, node⟩ := pair
    obtain ⟨k, f, p, s₁, hkey, -, -, hnew, -, hrest⟩ := readFields_cons h
    have hne : k.text ≠ name := by
      rintro rfl
      exact hnew hseen
    unfold Document.findPair?
    simp only [hkey, if_neg hne]
    exact ih hrest (List.mem_cons_of_mem _ hseen)

/-- A field of which no pair speaks keeps its value. -/
theorem get_readFields_of_none (h : Slot fields name get decoder) {pairs : List (Node × Node)}
    {seen seen' : List String} (hread : readFields fields d place seen s pairs = .ok (s', seen'))
    (hnone : d.findPair? name pairs = none) : get s' = get s := by
  induction pairs generalizing seen s with
  | nil =>
    cases hread
    rfl
  | cons pair rest ih =>
    obtain ⟨key, node⟩ := pair
    obtain ⟨k, f, p, s₁, hkey, hf, hname, -, hfirst, hrest⟩ := readFields_cons hread
    unfold Document.findPair? at hnone
    simp only [hkey] at hnone
    split at hnone
    · cases hnone
    · next hne =>
      rw [ih hrest hnone]
      exact h.other f hf (hname ▸ hne) hfirst

/-- **The pairs of a map give a field its value**: the one pair with its name, if there is one. -/
theorem readFields_gives (h : Slot fields name get decoder) {pairs : List (Node × Node)}
    {seen seen' : List String}
    (hread : readFields fields d place seen s pairs = .ok (s', seen')) :
    Gives d (d.findPair? name pairs) decoder (get s) (get s') := by
  induction pairs generalizing seen s with
  | nil =>
    cases hread
    rfl
  | cons pair rest ih =>
    obtain ⟨key, node⟩ := pair
    obtain ⟨k, f, p, s₁, hkey, hf, hname, -, hfirst, hrest⟩ := readFields_cons hread
    unfold Document.findPair?
    simp only [hkey]
    split
    · next heq =>
      -- a name is not given twice, so that the pairs behind this one leave the field alone
      have hlater : d.findPair? name rest = none :=
        findPair?_of_seen hrest (heq ▸ List.mem_cons_self)
      rw [get_readFields_of_none h hrest hlater]
      exact ⟨p, h.own f hf (hname.trans heq) hfirst⟩
    · next hne =>
      -- the field of another name leaves this one as it was
      have hkept : get s₁ = get s := h.other f hf (hname ▸ hne) hfirst
      rw [← hkept]
      exact ih hrest

/-- The names that are reported as given are given. -/
theorem mem_readFields {pairs : List (Node × Node)} {seen seen' : List String}
    (h : readFields fields d place seen s pairs = .ok (s', seen')) (hname : name ∈ seen') :
    name ∈ seen ∨ (d.findPair? name pairs).isSome := by
  induction pairs generalizing seen s with
  | nil =>
    cases h
    exact .inl hname
  | cons pair rest ih =>
    obtain ⟨key, node⟩ := pair
    obtain ⟨k, f, p, s₁, hkey, -, -, -, -, hrest⟩ := readFields_cons h
    unfold Document.findPair?
    simp only [hkey]
    split
    · exact .inr rfl
    · next hne =>
      rcases ih hrest with hmem | hsome
      · exact .inl ((List.mem_cons.mp hmem).resolve_left (Ne.symm hne))
      · exact .inr hsome

/-! ## Records in records -/

/-- The parts of a record that was read: it was a map, or nothing was written. -/
theorem readRecord_cases {label : String} {start : σ} {node : Node} {seen : List String}
    (h : readRecord label fields start d place node = .ok (s, seen)) :
    (∃ pairs, d.resolve node = .map pairs ∧
      readFields fields d place [] start pairs = .ok (s, seen)) ∨
    ((∀ name, d.find? node name = none) ∧ s = start ∧ seen = []) := by
  unfold readRecord at h
  unfold Document.find?
  -- Besides a mapping, a node with nothing in it is a record of defaults.
  split at h
  · next pairs hpairs => exact .inl ⟨pairs, hpairs, h⟩
  · next hnothing =>
    cases h
    exact .inr ⟨fun _ => by simp only [hnothing], rfl, rfl⟩
  · next k hscalar =>
    split at h
    · cases h
      exact .inr ⟨fun _ => by simp only [hscalar], rfl, rfl⟩
    · cases h
  · cases h

/-- A record that is read gives each slot the value found, or leaves what it began with. -/
theorem readRecord_gives (h : Slot fields name get decoder) {label : String} {start : σ}
    {node : Node} {seen : List String}
    (hread : readRecord label fields start d place node = .ok (s, seen)) :
    Gives d (d.find? node name) decoder (get start) (get s) := by
  rcases readRecord_cases hread with ⟨pairs, hpairs, hfields⟩ | ⟨hnone, rfl, -⟩
  · unfold Document.find?
    simp only [hpairs]
    exact readFields_gives h hfields
  · rw [hnone]
    rfl

/-- Whatever is read of a record in a document, the path gives its part of it the value. -/
def Reads (fields : List (KeyDecoder σ)) (start : σ) (path : List String) (get : σ → α)
    (decoder : Decoder α) : Prop :=
  ∀ ⦃label d place node s⦄, record label fields start d place node = .ok s →
    Gives d (d.at? node path) decoder (get start) (get s)

theorem Slot.reads (h : Slot fields name get decoder) {start : σ} :
    Reads fields start [name] get decoder := by
  intro label d place node s hread
  obtain ⟨⟨s, seen⟩, hrecord, hs⟩ := Json.bind_eq_ok.mp hread
  cases hs
  have hgives := readRecord_gives h hrecord
  unfold Document.at? Document.at?
  rw [Option.bind_fun_some]
  exact hgives

/-- **Records in records** give their fields what is given along the path. -/
theorem Slot.nested {label : String} {inner : List (KeyDecoder τ)} {start : σ}
    {path : List String} {get : τ → α} {decoder : Decoder α} (part : σ → τ)
    (h : Slot fields name part (record label inner (part start)))
    (hinner : Reads inner (part start) path get decoder) :
    Reads fields start (name :: path) (fun s => get (part s)) decoder := by
  intro label d place node s hread
  obtain ⟨⟨s, seen⟩, hrecord, hs⟩ := Json.bind_eq_ok.mp hread
  cases hs
  have hgives := readRecord_gives h hrecord
  unfold Document.at?
  -- Without the key the part keeps its default, and so does every place in it.
  cases hfind : d.find? node name with
  | none =>
    rw [hfind] at hgives
    exact congrArg get (show part s = part start from hgives)
  | some found =>
    rw [hfind] at hgives
    obtain ⟨p, hp⟩ := hgives
    exact hinner hp

end WsGateway.Yaml
