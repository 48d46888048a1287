/-!
# Finite maps

A map with finitely many keys, as a list of entries with distinct keys in the order in which
the keys were first put in. What a key maps to is all that the laws speak of: `get?_insert`
and `get?_erase`.
-/

namespace WsGateway

/-- The entries of a list with the value for a key replaced, or put at the end. -/
def putEntry {κ α : Type} [DecidableEq κ] (k : κ) (a : α) : List (κ × α) → List (κ × α)
  | [] => [(k, a)]
  | (k', a') :: rest => if k = k' then (k, a) :: rest else (k', a') :: putEntry k a rest

def findEntry {κ α : Type} [DecidableEq κ] (k : κ) : List (κ × α) → Option α
  | [] => none
  | (k', a) :: rest => if k = k' then some a else findEntry k rest

section Entries

variable {κ α : Type} [DecidableEq κ]

theorem mem_keys_putEntry {k k' : κ} {a : α} {l : List (κ × α)} :
    k' ∈ (putEntry k a l).map Prod.fst ↔ k' = k ∨ k' ∈ l.map Prod.fst := by
  induction l with
  | nil => simp [putEntry]
  | cons e rest ih =>
    obtain ⟨k₀, a₀⟩ := e
    rw [putEntry]
    split
    · subst_vars
      simp
    · simp only [List.map_cons, List.mem_cons, ih]
      constructor
      · rintro (h | h | h) <;> simp [h]
      · rintro (h | h | h) <;> simp [h]

theorem nodup_keys_putEntry (k : κ) (a : α) {l : List (κ × α)}
    (h : (l.map Prod.fst).Nodup) : ((putEntry k a l).map Prod.fst).Nodup := by
  induction l with
  | nil => simp [putEntry]
  | cons e rest ih =>
    obtain ⟨k₀, a₀⟩ := e
    simp only [List.map_cons, List.nodup_cons] at h
    rw [putEntry]
    split
    · subst_vars
      simpa using h
    · next hne =>
      simp only [List.map_cons, List.nodup_cons, mem_keys_putEntry]
      refine ⟨?_, ih h.2⟩
      rintro (hk | hk)
      · exact hne hk.symm
      · exact h.1 hk

omit [DecidableEq κ] in
theorem nodup_keys_filter (p : κ × α → Bool) {l : List (κ × α)}
    (h : (l.map Prod.fst).Nodup) : ((l.filter p).map Prod.fst).Nodup :=
  h.sublist (List.filter_sublist.map _)

theorem findEntry_putEntry (k k' : κ) (a : α) (l : List (κ × α)) :
    findEntry k' (putEntry k a l) = if k' = k then some a else findEntry k' l := by
  induction l with
  | nil => simp [putEntry, findEntry]
  | cons e rest ih =>
    obtain ⟨k₀, a₀⟩ := e
    rw [putEntry]
    split
    · subst_vars
      simp only [findEntry]
      split <;> rfl
    · next hne =>
      simp only [findEntry, ih]
      split
      · subst_vars
        rw [if_neg fun h => hne h.symm]
      · rfl

theorem findEntry_filter_ne (k k' : κ) (l : List (κ × α)) :
    findEntry k' (l.filter fun e => e.1 ≠ k) = if k' = k then none else findEntry k' l := by
  induction l with
  | nil => simp [findEntry]
  | cons e rest ih =>
    obtain ⟨k₀, a₀⟩ := e
    by_cases h : k₀ = k
    · subst h
      simp only [ne_eq, not_true_eq_false, decide_false, Bool.false_eq_true, not_false_eq_true,
        List.filter_cons_of_neg, ih, findEntry]
      split <;> rfl
    · simp only [ne_eq, h, not_false_eq_true, decide_true, List.filter_cons_of_pos, findEntry, ih]
      split
      · subst_vars
        rw [if_neg h]
      · rfl

theorem putEntry_putEntry (k : κ) (a b : α) (l : List (κ × α)) :
    putEntry k b (putEntry k a l) = putEntry k b l := by
  induction l with
  | nil => simp [putEntry]
  | cons e rest ih =>
    obtain ⟨k₀, a₀⟩ := e
    by_cases h : k = k₀
    · simp [putEntry, h]
    · simp [putEntry, h, ih]

theorem putEntry_of_find {k : κ} {a : α} {l : List (κ × α)} (h : findEntry k l = some a) :
    putEntry k a l = l := by
  induction l with
  | nil => cases h
  | cons e rest ih =>
    obtain ⟨k₀, a₀⟩ := e
    rw [findEntry] at h
    rw [putEntry]
    split at h
    · next heq =>
      cases h
      rw [if_pos heq, heq]
    · next hne => rw [if_neg hne, ih h]

/-- A new key is put at the end. -/
theorem putEntry_of_new {k : κ} {l : List (κ × α)} (h : findEntry k l = none) (a : α) :
    putEntry k a l = l ++ [(k, a)] := by
  induction l with
  | nil => rfl
  | cons e rest ih =>
    obtain ⟨k₀, a₀⟩ := e
    rw [findEntry] at h
    split at h
    · cases h
    · next hne => rw [putEntry, if_neg hne, ih h, List.cons_append]

theorem filter_ne_of_new {k : κ} {l : List (κ × α)} (h : findEntry k l = none) :
    (l.filter fun e => e.1 ≠ k) = l := by
  induction l with
  | nil => rfl
  | cons e rest ih =>
    obtain ⟨k₀, a₀⟩ := e
    rw [findEntry] at h
    split at h
    · cases h
    · next hne => rw [List.filter_cons_of_pos (by simpa using Ne.symm hne), ih h]

theorem findEntry_eq_none {k : κ} {l : List (κ × α)} (h : k ∉ l.map Prod.fst) :
    findEntry k l = none := by
  induction l with
  | nil => rfl
  | cons e rest ih =>
    obtain ⟨k₀, a₀⟩ := e
    rw [List.map_cons, List.mem_cons, not_or] at h
    rw [findEntry, if_neg h.1, ih h.2]

/-- A key that is there has one entry. -/
theorem length_filter_ne_of_find {k : κ} {a : α} {l : List (κ × α)} (h : (l.map Prod.fst).Nodup)
    (hk : findEntry k l = some a) : (l.filter fun e => e.1 ≠ k).length + 1 = l.length := by
  induction l with
  | nil => cases hk
  | cons e rest ih =>
    obtain ⟨k₀, a₀⟩ := e
    simp only [List.map_cons, List.nodup_cons] at h
    rw [findEntry] at hk
    split at hk
    · next heq =>
      subst heq
      rw [List.filter_cons_of_neg (by simp), filter_ne_of_new (findEntry_eq_none h.1),
        List.length_cons]
    · next hne =>
      rw [List.filter_cons_of_pos (by simpa using Ne.symm hne), List.length_cons, ih h.2 hk,
        List.length_cons]

theorem findEntry_eq_some_iff {k : κ} {a : α} {l : List (κ × α)} (h : (l.map Prod.fst).Nodup) :
    findEntry k l = some a ↔ (k, a) ∈ l := by
  induction l with
  | nil => simp [findEntry]
  | cons e rest ih =>
    obtain ⟨k₀, a₀⟩ := e
    simp only [List.map_cons, List.nodup_cons] at h
    rw [findEntry]
    split
    · next heq =>
      subst heq
      -- the key does not occur again, so the head is its only entry
      have hnot : (k, a) ∉ rest := fun hmem => h.1 (List.mem_map_of_mem hmem)
      simp [hnot, eq_comm]
    · next hne => simp [ih h.2, hne]

/-- Values that are changed beneath their keys are found beneath them. -/
theorem findEntry_map {β : Type} (f : κ → α → β) (k : κ) (l : List (κ × α)) :
    findEntry k (l.map fun e => (e.1, f e.1 e.2)) = (findEntry k l).map (f k) := by
  induction l with
  | nil => rfl
  | cons e rest ih =>
    rw [List.map_cons, findEntry, findEntry]
    split
    · next heq =>
      rw [heq]
      rfl
    · exact ih

end Entries

/-- A map with finitely many keys. -/
structure FinMap (κ α : Type) where
  entries : List (κ × α)
  nodup : (entries.map Prod.fst).Nodup

namespace FinMap

variable {κ α : Type}

def empty : FinMap κ α := ⟨[], by simp⟩

instance : Inhabited (FinMap κ α) := ⟨empty⟩

/-- The keys, in the order in which they were first put in. -/
def keys (m : FinMap κ α) : List κ := m.entries.map Prod.fst

def values (m : FinMap κ α) : List α := m.entries.map Prod.snd

def size (m : FinMap κ α) : Nat := m.entries.length

def isEmpty (m : FinMap κ α) : Bool := m.entries.isEmpty

variable [DecidableEq κ]

def get? (m : FinMap κ α) (k : κ) : Option α := findEntry k m.entries

def contains (m : FinMap κ α) (k : κ) : Bool := (m.get? k).isSome

def insert (m : FinMap κ α) (k : κ) (a : α) : FinMap κ α :=
  ⟨putEntry k a m.entries, nodup_keys_putEntry k a m.nodup⟩

def erase (m : FinMap κ α) (k : κ) : FinMap κ α :=
  ⟨m.entries.filter fun e => e.1 ≠ k, nodup_keys_filter _ m.nodup⟩

@[simp] theorem get?_empty (k : κ) : (empty : FinMap κ α).get? k = none := rfl

theorem get?_eq_some_iff {m : FinMap κ α} {k : κ} {a : α} :
    m.get? k = some a ↔ (k, a) ∈ m.entries :=
  findEntry_eq_some_iff m.nodup

theorem mem_keys_iff {m : FinMap κ α} {k : κ} : k ∈ m.keys ↔ (m.get? k).isSome := by
  rw [Option.isSome_iff_exists]
  simp only [keys, List.mem_map, Prod.exists, exists_and_right, exists_eq_right, get?_eq_some_iff]

theorem get?_insert (m : FinMap κ α) (k k' : κ) (a : α) :
    (m.insert k a).get? k' = if k' = k then some a else m.get? k' :=
  findEntry_putEntry k k' a m.entries

theorem get?_erase (m : FinMap κ α) (k k' : κ) :
    (m.erase k).get? k' = if k' = k then none else m.get? k' :=
  findEntry_filter_ne k k' m.entries

omit [DecidableEq κ] in
theorem eq_of_entries {m m' : FinMap κ α} (h : m.entries = m'.entries) : m = m' := by
  cases m
  cases m'
  cases h
  rfl

theorem insert_insert (m : FinMap κ α) (k : κ) (a b : α) :
    (m.insert k a).insert k b = m.insert k b :=
  eq_of_entries (putEntry_putEntry k a b m.entries)

theorem insert_of_get? {m : FinMap κ α} {k : κ} {a : α} (h : m.get? k = some a) :
    m.insert k a = m :=
  eq_of_entries (putEntry_of_find h)

theorem size_insert_of_new {m : FinMap κ α} {k : κ} (h : m.get? k = none) (a : α) :
    (m.insert k a).size = m.size + 1 := by
  show (putEntry k a m.entries).length = m.entries.length + 1
  rw [putEntry_of_new h, List.length_append, List.length_singleton]

theorem size_erase_of_get? {m : FinMap κ α} {k : κ} {a : α} (h : m.get? k = some a) :
    (m.erase k).size + 1 = m.size :=
  length_filter_ne_of_find m.nodup h

/-- A key that was put in and is taken out again leaves no trace. -/
theorem erase_insert {m : FinMap κ α} {k : κ} (h : m.get? k = none) (a : α) :
    (m.insert k a).erase k = m := by
  apply eq_of_entries
  show ((putEntry k a m.entries).filter fun e => e.1 ≠ k) = m.entries
  rw [putEntry_of_new h, List.filter_append, filter_ne_of_new h]
  simp

end FinMap

end WsGateway
