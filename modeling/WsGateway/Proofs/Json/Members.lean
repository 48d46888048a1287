import WsGateway.Json.Value

/-!
# Members of objects

The members of an object are put in one by one, each at its place in the order of names. What comes
out is ascending (`ascending_insertAll`), so that a list that is ascending already stays as it is
(`insertAll_of_ascending`), and putting members in does not look at their values
(`insertAll_mapValues`).
-/

namespace WsGateway.Json

def Ascending {α : Type} (members : List (String × α)) : Prop :=
  members.Pairwise fun m m' => m.1 < m'.1

def insertAll (members : List (String × Value)) : List (String × Value) :=
  members.foldl (fun acc m => insertMember m.1 m.2 acc) []

theorem ofMembers_eq (members : List (String × Value)) :
    Value.ofMembers members = .object (insertAll members) := rfl

/-- A member of an object is the one that was entered or one that was there. -/
theorem mem_insertMember {key : String} {v : Value} {members : List (String × Value)}
    {m : String × Value} (h : m ∈ insertMember key v members) : m = (key, v) ∨ m ∈ members := by
  induction members with
  | nil => exact Or.inl (List.mem_singleton.mp h)
  | cons m₀ rest ih =>
    rw [insertMember] at h
    split at h
    · exact List.mem_cons.mp h
    · split at h
      · rcases List.mem_cons.mp h with h | h
        · exact Or.inl h
        · exact Or.inr (List.mem_cons_of_mem _ h)
      · rcases List.mem_cons.mp h with h | h
        · exact Or.inr (h ▸ List.mem_cons_self)
        · exact (ih h).imp_right (List.mem_cons_of_mem _)

/-- Entering a member keeps the keys in ascending order. -/
theorem Ascending.insertMember {members : List (String × Value)} (h : Ascending members)
    (key : String) (v : Value) : Ascending (insertMember key v members) := by
  induction members with
  | nil => exact List.pairwise_singleton _ _
  | cons m rest ih =>
    obtain ⟨hm, hrest⟩ := List.pairwise_cons.mp h
    rw [Json.insertMember]
    split
    · next hlt =>
      refine List.pairwise_cons.mpr ⟨?_, h⟩
      intro m' hm'
      rcases List.mem_cons.mp hm' with rfl | hm'
      · exact hlt
      · exact String.lt_trans hlt (hm m' hm')
    · next hnlt =>
      split
      · next heq =>
        subst heq
        exact List.pairwise_cons.mpr ⟨hm, hrest⟩
      · next hne =>
        -- neither smaller nor equal, so the new name stands behind this one
        have hgt : m.1 < key := by
          rcases Std.lt_trichotomy key m.1 with h | h | h
          · exact absurd h hnlt
          · exact absurd h hne
          · exact h
        refine List.pairwise_cons.mpr ⟨?_, ih hrest⟩
        intro m' hm'
        rcases mem_insertMember hm' with rfl | hm'
        · exact hgt
        · exact hm m' hm'

theorem ascending_insertAll (members : List (String × Value)) : Ascending (insertAll members) := by
  have hfold : ∀ (ms acc : List (String × Value)), Ascending acc →
      Ascending (ms.foldl (fun acc m => insertMember m.1 m.2 acc) acc) := by
    intro ms
    induction ms with
    | nil => exact fun _ h => h
    | cons m ms ih => exact fun acc h => ih _ (h.insertMember m.1 m.2)
  exact hfold members [] .nil

/-- An object has no members but those that were given. -/
theorem mem_insertAll {members : List (String × Value)} {m : String × Value}
    (h : m ∈ insertAll members) : m ∈ members := by
  have hfold : ∀ ms acc : List (String × Value),
      m ∈ ms.foldl (fun acc m => insertMember m.1 m.2 acc) acc → m ∈ acc ∨ m ∈ ms := by
    intro ms
    induction ms with
    | nil => exact fun _ h => Or.inl h
    | cons m' ms ih =>
      intro acc h
      rcases ih _ h with h | h
      · rcases mem_insertMember h with rfl | h
        · exact Or.inr List.mem_cons_self
        · exact Or.inl h
      · exact Or.inr (List.mem_cons_of_mem _ h)
  exact (hfold members [] h).resolve_left List.not_mem_nil

/-- An object has every key that was entered. -/
theorem exists_mem_insertMember (key : String) (v : Value) (members : List (String × Value)) :
    (∃ m ∈ insertMember key v members, m.1 = key) ∧
      ∀ m ∈ members, ∃ m' ∈ insertMember key v members, m'.1 = m.1 := by
  induction members with
  | nil => exact ⟨⟨(key, v), List.mem_cons_self, rfl⟩, fun m hm => absurd hm List.not_mem_nil⟩
  | cons m₀ rest ih =>
    rw [insertMember]
    split
    · exact ⟨⟨(key, v), List.mem_cons_self, rfl⟩, fun m hm => ⟨m, List.mem_cons_of_mem _ hm, rfl⟩⟩
    · split
      -- The new member takes the place of the one with its key.
      · next heq =>
        refine ⟨⟨(key, v), List.mem_cons_self, rfl⟩, fun m hm => ?_⟩
        rcases List.mem_cons.mp hm with rfl | hm
        · exact ⟨(key, v), List.mem_cons_self, heq⟩
        · exact ⟨m, List.mem_cons_of_mem _ hm, rfl⟩
      · obtain ⟨⟨m, hm, hkey⟩, hrest⟩ := ih
        refine ⟨⟨m, List.mem_cons_of_mem _ hm, hkey⟩, fun m hm => ?_⟩
        rcases List.mem_cons.mp hm with rfl | hm
        · exact ⟨m, List.mem_cons_self, rfl⟩
        · obtain ⟨m', hm', hsame⟩ := hrest m hm
          exact ⟨m', List.mem_cons_of_mem _ hm', hsame⟩

/-- Every name that was put in stays, though perhaps with another value. -/
theorem exists_mem_insertAll {members : List (String × Value)} {m : String × Value}
    (h : m ∈ members) : ∃ m' ∈ insertAll members, m'.1 = m.1 := by
  have hfold : ∀ ms acc : List (String × Value), m ∈ ms ∨ (∃ m' ∈ acc, m'.1 = m.1) →
      ∃ m' ∈ ms.foldl (fun acc m => insertMember m.1 m.2 acc) acc, m'.1 = m.1 := by
    intro ms
    induction ms with
    | nil => exact fun acc hm => hm.resolve_left List.not_mem_nil
    | cons m₀ ms ih =>
      intro acc hm
      obtain ⟨hkey, hkept⟩ := exists_mem_insertMember m₀.1 m₀.2 acc
      refine ih _ ?_
      rcases hm with hm | ⟨m', hm', hsame⟩
      · rcases List.mem_cons.mp hm with rfl | hm
        · exact Or.inr hkey
        · exact Or.inl hm
      · obtain ⟨m'', hm'', hsame'⟩ := hkept m' hm'
        exact Or.inr ⟨m'', hm'', hsame'.trans hsame⟩
  exact hfold members [] (Or.inl h)

/-- A name greater than all others is put in at the end. -/
theorem insertMember_of_greatest {members : List (String × Value)} {key : String}
    (h : ∀ m ∈ members, m.1 < key) (v : Value) :
    insertMember key v members = members ++ [(key, v)] := by
  induction members with
  | nil => rfl
  | cons m rest ih =>
    have hlt := h m List.mem_cons_self
    have hne : key ≠ m.1 := by
      rintro rfl
      exact String.lt_irrefl _ hlt
    rw [insertMember, if_neg (String.lt_asymm hlt), if_neg hne,
      ih fun m' hm' => h m' (List.mem_cons_of_mem _ hm')]
    rfl

/-- Ascending members are put in as they stand. -/
theorem insertAll_of_ascending {members : List (String × Value)} (h : Ascending members) :
    insertAll members = members := by
  have hfold : ∀ ms acc : List (String × Value), Ascending (acc ++ ms) →
      ms.foldl (fun acc m => insertMember m.1 m.2 acc) acc = acc ++ ms := by
    intro ms
    induction ms with
    | nil => simp
    | cons m ms ih =>
      intro acc hacc
      have hgreatest : ∀ m' ∈ acc, m'.1 < m.1 := fun m' hm' =>
        (List.pairwise_append.mp hacc).2.2 m' hm' m List.mem_cons_self
      rw [List.foldl_cons, insertMember_of_greatest hgreatest]
      have happend : acc ++ m :: ms = (acc ++ [m]) ++ ms := by simp
      rw [happend] at hacc ⊢
      exact ih _ hacc
  exact hfold members [] h

def mapValues {α β : Type} (f : α → β) (members : List (String × α)) : List (String × β) :=
  members.map fun m => (m.1, f m.2)

/-- Values may be mapped before or after a member is entered. -/
theorem insertMember_mapValues (f : Value → Value) (key : String) (v : Value)
    (members : List (String × Value)) :
    insertMember key (f v) (mapValues f members) = mapValues f (insertMember key v members) := by
  induction members with
  | nil => rfl
  | cons m rest ih =>
    simp only [mapValues, List.map_cons, insertMember] at ih ⊢
    split
    · rfl
    · split
      · rfl
      · rw [List.map_cons, ih]

/-- Where a member is put does not depend on the values. -/
theorem insertAll_mapValues (f : Value → Value) (members : List (String × Value)) :
    insertAll (mapValues f members) = mapValues f (insertAll members) := by
  have hfold : ∀ ms acc : List (String × Value),
      (mapValues f ms).foldl (fun acc m => insertMember m.1 m.2 acc) (mapValues f acc) =
        mapValues f (ms.foldl (fun acc m => insertMember m.1 m.2 acc) acc) := by
    intro ms
    induction ms with
    | nil => exact fun _ => rfl
    | cons m ms ih =>
      intro acc
      rw [List.foldl_cons, ← ih, ← insertMember_mapValues]
      rfl
  exact hfold members []

/-- Members that were put in are put in again as they stand, whatever their values have become. -/
theorem insertAll_mapValues_insertAll (f : Value → Value) (members : List (String × Value)) :
    insertAll (mapValues f (insertAll members)) = insertAll (mapValues f members) := by
  rw [insertAll_mapValues, insertAll_mapValues,
    insertAll_of_ascending (ascending_insertAll members)]

end WsGateway.Json
