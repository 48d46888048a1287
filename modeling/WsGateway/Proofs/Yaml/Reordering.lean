import Mathlib.Logic.Relation
import WsGateway.Proofs.Yaml.Schema

/-!
# Pairs in another order

A node is reordered if, one after another, maps in it have their pairs put in another order
(`Node.Reordered`). One such step (`Node.Swap`) leaves every path where it leads, up to the order in
the map that it leads to (`Node.Swap.holds`). So the step changes nothing that a schema says, except
of leaves, and a leaf that is not a map has no order to change.
-/

namespace WsGateway.Yaml

/-- One map in the node has its pairs in another order. -/
inductive Node.Swap : Node → Node → Prop
  | here {pairs pairs' : List (Node × Node)} (h : pairs.Perm pairs') :
      Swap (.map pairs) (.map pairs')
  | inside {before after : List (Node × Node)} {key value value' : Node} (h : Swap value value') :
      Swap (.map (before ++ (key, value) :: after)) (.map (before ++ (key, value') :: after))

/-- Some maps in the node have their pairs in another order. -/
def Node.Reordered : Node → Node → Prop := Relation.EqvGen Node.Swap

/-- What stands at the leaves is what decoders of single nodes read. -/
def Schema.Plain (o : Schema) : Prop :=
  ∀ x ∈ o.leaves, ∃ (α : Type) (decoder : Decoder α), Yaml.Plain decoder ∧ x.2 = Admits decoder

namespace Node.Swap

variable {β : Type} {d : Document} {node node' : Node}

/-- What is exchanged can be exchanged back. -/
theorem symm (h : Swap node node') : Swap node' node := by
  induction h with
  | here h => exact .here h.symm
  | inside _ ih => exact .inside ih

/-- The keys of the map stay the same, but for their order. -/
theorem maps (h : Swap node node') (d : Document) :
    ∃ pairs pairs', node = .map pairs ∧ node' = .map pairs' ∧
      (d.keys pairs).Perm (d.keys pairs') := by
  cases h with
  | here h => exact ⟨_, _, rfl, rfl, h.map _⟩
  | inside _ =>
    refine ⟨_, _, rfl, rfl, ?_⟩
    unfold Document.keys
    rw [List.map_append, List.map_append, List.map_cons, List.map_cons]

/-- After an exchange a key is still there, with the same node or with one that was exchanged
inside. -/
theorem has {name : String} {inner : Node} (h : Swap node node') (hinner : d.Has node name inner) :
    ∃ inner', d.Has node' name inner' ∧ (inner = inner' ∨ Swap inner inner') := by
  obtain ⟨pairs, key, hpairs, hmem, hkey⟩ := hinner
  cases h with
  | here h =>
    cases hpairs
    exact ⟨inner, ⟨_, key, rfl, h.mem_iff.mp hmem, hkey⟩, .inl rfl⟩
  | @inside before after key' value value' h =>
    cases hpairs
    -- the pair is in front of the changed one, or that one itself, or behind it
    rcases List.mem_append.mp hmem with hmem | hmem
    · exact ⟨inner, ⟨_, key, rfl, List.mem_append_left _ hmem, hkey⟩, .inl rfl⟩
    rcases List.mem_cons.mp hmem with heq | hmem
    · cases heq
      exact ⟨value', ⟨_, key, rfl, List.mem_append_right _ List.mem_cons_self, hkey⟩, .inr h⟩
    · exact ⟨inner, ⟨_, key, rfl, List.mem_append_right _ (List.mem_cons_of_mem _ hmem), hkey⟩,
        .inl rfl⟩

/-- **A path leads to the same node**, or to the reordered one if the step is behind its end. -/
theorem holds {path : List String} {inner : Node} (h : Swap node node')
    (hinner : d.Holds node path inner) :
    ∃ inner', d.Holds node' path inner' ∧ (inner = inner' ∨ Swap inner inner') := by
  induction path generalizing node node' with
  | nil => exact ⟨node', rfl, .inr ((show node = inner from hinner) ▸ h)⟩
  | cons name rest ih =>
    obtain ⟨next, hnext, hrest⟩ := hinner
    obtain ⟨next', hnext', rfl | hswap⟩ := h.has hnext
    · exact ⟨inner, ⟨next, hnext', hrest⟩, .inl rfl⟩
    · obtain ⟨inner', hinner', hsame⟩ := ih hswap hrest
      exact ⟨inner', ⟨next', hnext', hinner'⟩, hsame⟩

theorem everywhere {paths : List (List String × β)} {P : β → Node → Prop} (h : Swap node node')
    (hP : ∀ x ∈ paths, ∀ inner inner', Swap inner inner' → P x.2 inner → P x.2 inner')
    (hnode : d.Everywhere node paths P) : d.Everywhere node' paths P := by
  intro x hx inner' hinner'
  obtain ⟨inner, hinner, rfl | hswap⟩ := h.symm.holds hinner'
  · exact hnode x hx _ hinner
  · exact hP x hx inner inner' hswap.symm (hnode x hx inner hinner)

theorem mapped {o : Schema} (h : Swap node node') (hmapped : o.Mapped d node) :
    o.Mapped d node' := by
  refine h.everywhere (fun _ _ inner inner' hswap _ => ?_) hmapped
  obtain ⟨pairs, pairs', -, rfl, -⟩ := hswap.maps d
  exact ⟨pairs', rfl⟩

theorem tight {o : Schema} (h : Swap node node') (htight : o.Tight d node) : o.Tight d node' := by
  refine h.everywhere (fun _ _ inner inner' hswap hinner pairs'' hpairs'' => ?_) htight
  obtain ⟨pairs, pairs', rfl, rfl, hperm⟩ := hswap.maps d
  cases hpairs''
  obtain ⟨hknown, hnodup⟩ := hinner pairs rfl
  exact ⟨fun key hkey => hknown key (hperm.mem_iff.mpr hkey), hperm.nodup_iff.mp hnodup⟩

/-- What a plain decoder reads has no order to change. -/
theorem not_of_read {α : Type} {decoder : Decoder α} (hplain : Plain decoder)
    {place : Option String} {v : α} (hread : decoder d place node = .ok v) :
    ¬ Swap node node' := by
  intro h
  obtain ⟨pairs, -, rfl, -, -⟩ := h.maps d
  exact hplain.noMap hread rfl

theorem reads {α : Type} {decoder : Decoder α} (hplain : Plain decoder) {path : List String}
    {v : α} (h : Swap node node')
    (hread : ∀ inner, d.Holds node path inner → ∃ place, decoder d place inner = .ok v) :
    ∀ inner, d.Holds node' path inner → ∃ place, decoder d place inner = .ok v := by
  intro inner' hinner'
  obtain ⟨inner, hinner, rfl | hswap⟩ := h.symm.holds hinner'
  · exact hread _ hinner
  · obtain ⟨place, hplace⟩ := hread inner hinner
    exact absurd hswap.symm (not_of_read hplain hplace)

/-- A node still fits a schema after an exchange. -/
theorem fits {o : Schema} (hplain : o.Plain) (h : Swap node node') (hfits : o.Fits d node) :
    o.Fits d node' where
  tight := h.tight hfits.tight
  leaf := by
    refine h.everywhere (fun x hx inner inner' hswap hinner => ?_) hfits.leaf
    obtain ⟨α, decoder, hdecoder, hleaf⟩ := hplain x hx
    rw [hleaf] at hinner
    obtain ⟨place, v, hread⟩ := hinner
    exact absurd hswap (not_of_read hdecoder hread)

end Node.Swap

/-- What one step preserves holds of all reordered nodes or of none. -/
theorem Node.Reordered.iff_of_step {P : Node → Prop} (hstep : ∀ n n', Node.Swap n n' → P n → P n')
    {node node' : Node} (h : Node.Reordered node node') : P node ↔ P node' := by
  induction h with
  | rel n n' h => exact ⟨hstep n n' h, hstep n' n h.symm⟩
  | refl n => exact Iff.rfl
  | symm n n' _ ih => exact ih.symm
  | trans n n' n'' _ _ ih ih' => exact ih.trans ih'

/-! ## Documents with the same anchors -/

section Anchors

variable {β : Type} {d d' : Document} {node inner : Node} {path : List String}

theorem keyText?_congr (h : d.resolve = d'.resolve) : d.keyText? = d'.keyText? := by
  funext key
  unfold Document.keyText?
  rw [h]

theorem holds_congr (h : d.resolve = d'.resolve) :
    d.Holds node path inner ↔ d'.Holds node path inner := by
  induction path generalizing node with
  | nil => exact Iff.rfl
  | cons name rest ih =>
    unfold Document.Holds Document.Has
    rw [h, keyText?_congr h]
    exact exists_congr fun next => and_congr_right fun _ => ih

theorem mapped_congr {o : Schema} (h : d.resolve = d'.resolve) (hmapped : o.Mapped d node) :
    o.Mapped d' node := by
  intro x hx inner hinner
  rw [← h]
  exact hmapped x hx inner ((holds_congr h).mpr hinner)

/-- Documents that resolve alike fit alike. -/
theorem fits_congr {o : Schema} (hplain : o.Plain) (h : d.resolve = d'.resolve)
    (hfits : o.Fits d node) : o.Fits d' node where
  tight x hx inner hinner pairs hpairs := by
    obtain ⟨hknown, hnodup⟩ :=
      hfits.tight x hx inner ((holds_congr h).mpr hinner) pairs (h ▸ hpairs)
    unfold Document.keys at hknown hnodup
    rw [keyText?_congr h] at hknown hnodup
    exact ⟨hknown, hnodup⟩
  leaf x hx inner hinner := by
    obtain ⟨α, decoder, hdecoder, hleaf⟩ := hplain x hx
    have hadmits := hfits.leaf x hx inner ((holds_congr h).mpr hinner)
    rw [hleaf] at hadmits ⊢
    obtain ⟨place, v, hread⟩ := hadmits
    exact ⟨place, v, hdecoder.read h hread⟩

end Anchors

end WsGateway.Yaml
