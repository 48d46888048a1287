import Mathlib.Data.List.Nodup
import WsGateway.Subscriptions

/-!
# Consistency of the subscriptions

The subscriptions are held three times: by connection and correlation id, by operation, and by
connection. Every change updates the three by hand and tidies the two indexes. This module says
what ties them together and that it survives every change:

* `OpIndexed` and `ConnIndexed` say that an index lists exactly the keys of the subscriptions that
  belong under an entry. `Consistent` is both of them.
* The lemmas on `indexInsert` and `indexErase` say what an index lists after a change, so that
  nothing further on opens these two.
* `OpIndexed.remove` is the one step that cancelling a subscription and cleaning up a connection
  share. A clean-up empties the index by connection first, so that in its midst only `OpIndexed`
  holds; `dropAll_opIndexed` carries that through the loop.
-/

namespace WsGateway

/-! ## Indexes

An index keeps a list of items for a key. It is tidy when no list repeats an item and no key is
kept without items. -/

section Indexes

variable {κ α : Type} [DecidableEq κ]

/-- The items that an index lists under a key. -/
def indexItems (m : FinMap κ (List α)) (k : κ) : List α := (m.get? k).getD []

/-- No key repeats an item, and none is left without items. -/
structure TidyIndex (m : FinMap κ (List α)) : Prop where
  nodup : ∀ {k items}, m.get? k = some items → items.Nodup
  ne_nil : ∀ {k items}, m.get? k = some items → items ≠ []

theorem indexItems_of_get? {m : FinMap κ (List α)} {k : κ} {items : List α}
    (h : m.get? k = some items) : indexItems m k = items := by
  simp [indexItems, h]

theorem TidyIndex.nodup_indexItems {m : FinMap κ (List α)} (h : TidyIndex m) (k : κ) :
    (indexItems m k).Nodup := by
  cases hk : m.get? k with
  | none => simp [indexItems, hk]
  | some items =>
    rw [indexItems_of_get? hk]
    exact h.nodup hk

theorem tidyIndex_empty : TidyIndex (FinMap.empty : FinMap κ (List α)) :=
  ⟨by simp, by simp⟩

/-- A key that is taken out lists nothing, and the others list what they did. -/
theorem indexItems_erase (m : FinMap κ (List α)) (k k' : κ) :
    indexItems (m.erase k) k' = if k' = k then [] else indexItems m k' := by
  simp only [indexItems, FinMap.get?_erase]
  split <;> rfl

/-- An index without one of its keys is tidy. -/
theorem TidyIndex.erase {m : FinMap κ (List α)} (h : TidyIndex m) (k : κ) :
    TidyIndex (m.erase k) := by
  have hget : ∀ {k' items}, (m.erase k).get? k' = some items → m.get? k' = some items := by
    intro k' items hk'
    rw [FinMap.get?_erase] at hk'
    split at hk'
    · exact absurd hk' (by simp)
    · exact hk'
  exact ⟨fun hk' => h.nodup (hget hk'), fun hk' => h.ne_nil (hget hk')⟩

/-- An index with a list that is neither empty nor repeats is tidy. -/
theorem TidyIndex.insert {m : FinMap κ (List α)} (h : TidyIndex m) (k : κ) {items : List α}
    (hnodup : items.Nodup) (hne : items ≠ []) : TidyIndex (m.insert k items) := by
  have hget : ∀ {k' items'}, (m.insert k items).get? k' = some items' →
      items' = items ∨ m.get? k' = some items' := by
    intro k' items' hk'
    rw [FinMap.get?_insert] at hk'
    split at hk'
    · exact Or.inl (Option.some.inj hk').symm
    · exact Or.inr hk'
  constructor
  · intro k' items' hk'
    rcases hget hk' with rfl | hold
    · exact hnodup
    · exact h.nodup hold
  · intro k' items' hk'
    rcases hget hk' with rfl | hold
    · exact hne
    · exact h.ne_nil hold

variable [DecidableEq α]

/-- An item that is entered is found under its key, and nothing else is new. -/
theorem mem_indexItems_indexInsert {m : FinMap κ (List α)} {k k' : κ} {a b : α} :
    b ∈ indexItems (indexInsert m k a) k' ↔ (k' = k ∧ b = a) ∨ b ∈ indexItems m k' := by
  simp only [indexItems, indexInsert, FinMap.get?_insert]
  by_cases hk : k' = k
  · subst hk
    simp [List.mem_insert_iff]
  · simp [hk]

/-- Entering an item keeps an index tidy. -/
theorem TidyIndex.indexInsert {m : FinMap κ (List α)} (h : TidyIndex m) (k : κ) (a : α) :
    TidyIndex (indexInsert m k a) := by
  apply h.insert
  · exact (h.nodup_indexItems k).insert
  · exact List.ne_nil_of_mem List.mem_insert_self

/-- An item that is taken out is gone from its key, and nothing else is. -/
theorem mem_indexItems_indexErase {m : FinMap κ (List α)} (h : TidyIndex m) {k k' : κ} {a b : α} :
    b ∈ indexItems (indexErase m k a) k' ↔ b ∈ indexItems m k' ∧ ¬ (k' = k ∧ b = a) := by
  rw [indexErase]
  cases hk : m.get? k with
  | none =>
    -- nothing is listed under the key, so no item is lost
    have hnil : indexItems m k = [] := by simp [indexItems, hk]
    by_cases hkk : k' = k
    · subst hkk
      simp [hnil]
    · simp [hkk]
  | some items =>
    have hitems : indexItems m k = items := indexItems_of_get? hk
    have hmem : b ∈ items.erase a ↔ b ∈ items ∧ b ≠ a := by
      rw [(h.nodup hk).mem_erase_iff, and_comm]
    by_cases hkk : k' = k
    · subst hkk
      simp only
      split
      · next hempty =>
        rw [indexItems_erase, if_pos rfl, hitems]
        rw [List.isEmpty_iff.mp hempty] at hmem
        simpa using hmem
      · rw [indexItems, FinMap.get?_insert, if_pos rfl, hitems]
        simpa using hmem
    · simp only
      split
      · rw [indexItems_erase, if_neg hkk]
        simp [hkk]
      · rw [indexItems, FinMap.get?_insert, if_neg hkk]
        simp [hkk, indexItems]

/-- Taking an item out keeps an index tidy: a key without items is dropped. -/
theorem TidyIndex.indexErase {m : FinMap κ (List α)} (h : TidyIndex m) (k : κ) (a : α) :
    TidyIndex (indexErase m k a) := by
  rw [WsGateway.indexErase]
  cases hk : m.get? k with
  | none => exact h
  | some items =>
    simp only
    split
    · exact h.erase k
    · next hne =>
      apply h.insert
      · exact (h.nodup hk).erase a
      · simpa [List.isEmpty_iff] using hne

end Indexes

namespace Subscriptions

/-! ## What ties the three together -/

/-- Every subscription stands under its own key, and the index by operation lists the keys of the
subscriptions of each operation. -/
structure OpIndexed (t : Subscriptions) : Prop where
  stored : ∀ {conn rerid s}, t.subs.get? (conn, rerid) = some s →
    s.rerid = rerid ∧ s.link.id = conn
  mem_byOp : ∀ {op key}, key ∈ indexItems t.byOp op ↔ ∃ s, t.subs.get? key = some s ∧ s.op = op
  tidy_byOp : TidyIndex t.byOp

/-- The index by connection lists the correlation ids of the subscriptions of each connection. -/
structure ConnIndexed (t : Subscriptions) : Prop where
  mem_byConn : ∀ {conn rerid},
    rerid ∈ indexItems t.byConn conn ↔ (t.subs.get? (conn, rerid)).isSome
  tidy_byConn : TidyIndex t.byConn

/-- The subscriptions and both indexes correspond exactly. -/
structure Consistent (t : Subscriptions) : Prop extends OpIndexed t, ConnIndexed t

/-- The empty tables agree. -/
theorem consistent_empty : Consistent empty where
  stored h := by simp [empty] at h
  mem_byOp := by simp [empty, indexItems]
  tidy_byOp := tidyIndex_empty
  mem_byConn := by simp [empty, indexItems]
  tidy_byConn := tidyIndex_empty

/-! ## Taking one subscription out -/

/-- The subscriptions and the index by operation without one subscription. -/
def removeStored (t : Subscriptions) (key : SubscriptionKey) (s : Subscription) : Subscriptions :=
  { t with subs := t.subs.erase key, byOp := indexErase t.byOp s.op key }

/-- A subscription that is removed is removed from the index of its operation too. -/
theorem OpIndexed.remove {t : Subscriptions} (h : OpIndexed t) {key : SubscriptionKey}
    {s : Subscription} (hs : t.subs.get? key = some s) : OpIndexed (t.removeStored key s) where
  stored := by
    intro conn rerid s' hs'
    rw [removeStored, FinMap.get?_erase] at hs'
    split at hs'
    · exact absurd hs' (by simp)
    · exact h.stored hs'
  mem_byOp := by
    intro op key'
    rw [removeStored, mem_indexItems_indexErase h.tidy_byOp, h.mem_byOp]
    simp only [FinMap.get?_erase]
    by_cases hkey : key' = key
    · subst hkey
      simp [hs, eq_comm]
    · simp [hkey]
  tidy_byOp := h.tidy_byOp.indexErase _ _

/-! ## Every change keeps the correspondence -/

/-- A subscription is refused exactly when its key is taken. -/
theorem subscribe_of_taken {t : Subscriptions} {k : Link} {rerid : Int64} (op : String)
    (h : (t.subs.get? (k.id, rerid)).isSome) :
    t.subscribe k rerid op = .error (duplicateError rerid) := by
  rw [subscribe]
  simp [keyOf, FinMap.contains, h]

/-- A subscription whose key is free is put in. -/
theorem subscribe_of_free {t : Subscriptions} {k : Link} {rerid : Int64} (op : String)
    (h : t.subs.get? (k.id, rerid) = none) :
    ∃ t', t.subscribe k rerid op = .ok t' ∧
      t'.subs = t.subs.insert (k.id, rerid) ⟨rerid, op, k⟩ ∧
      t'.byOp = indexInsert t.byOp op (k.id, rerid) ∧
      t'.byConn = indexInsert t.byConn k.id rerid := by
  rw [subscribe]
  simp [keyOf, FinMap.contains, h]

/-- Subscribing enters the subscription in all three tables. -/
theorem Consistent.subscribe {t t' : Subscriptions} (h : Consistent t) {k : Link} {rerid : Int64}
    {op : String} (hs : t.subscribe k rerid op = .ok t') : Consistent t' := by
  have hfree : t.subs.get? (k.id, rerid) = none := by
    by_contra hne
    rw [subscribe_of_taken op (Option.isSome_iff_ne_none.mpr hne)] at hs
    cases hs
  -- it was accepted, so its key was free and now stands in all three maps
  obtain ⟨t₁, ht₁, hsubs, hbyOp, hbyConn⟩ := subscribe_of_free op hfree
  rw [ht₁] at hs
  cases hs
  constructor
  · constructor
    · intro conn rerid' s hget
      rw [hsubs, FinMap.get?_insert] at hget
      split at hget
      · next hkey =>
        cases hget
        cases hkey
        exact ⟨rfl, rfl⟩
      · exact h.stored hget
    · intro op' key
      rw [hbyOp, mem_indexItems_indexInsert, h.mem_byOp, hsubs]
      simp only [FinMap.get?_insert]
      by_cases hkey : key = (k.id, rerid)
      · subst hkey
        simp [hfree, eq_comm]
      · simp [hkey]
    · rw [hbyOp]
      exact h.tidy_byOp.indexInsert _ _
  · constructor
    · intro conn rerid'
      rw [hbyConn, mem_indexItems_indexInsert, h.mem_byConn, hsubs, FinMap.get?_insert]
      by_cases hkey : (conn, rerid') = (k.id, rerid)
      · cases hkey
        simp
      · have hne : ¬ (conn = k.id ∧ rerid' = rerid) := by
          rintro ⟨hc, hr⟩
          exact hkey (by rw [hc, hr])
        simp [hkey, hne]
    · rw [hbyConn]
      exact h.tidy_byConn.indexInsert _ _

/-- Unsubscribing what is not subscribed changes nothing. -/
theorem unsubscribe_of_free {t : Subscriptions} {conn : UInt64} {rerid : Int64}
    (h : t.subs.get? (conn, rerid) = none) : t.unsubscribe conn rerid = (none, t) := by
  simp [unsubscribe, h]

/-- Unsubscribing returns the subscription and removes it from all three tables. -/
theorem unsubscribe_of_taken {t : Subscriptions} {conn : UInt64} {rerid : Int64}
    {s : Subscription} (h : t.subs.get? (conn, rerid) = some s) :
    t.unsubscribe conn rerid = (some s,
      { t.removeStored (conn, rerid) s with byConn := indexErase t.byConn conn rerid }) := by
  simp [unsubscribe, h, removeStored]

/-- Cancelling takes out and gives back what stood under the key, and nothing else. -/
theorem unsubscribe_fst (t : Subscriptions) (conn : UInt64) (rerid : Int64) :
    (t.unsubscribe conn rerid).1 = t.subs.get? (conn, rerid) := by
  cases h : t.subs.get? (conn, rerid) with
  | none => rw [unsubscribe_of_free h]
  | some s => rw [unsubscribe_of_taken h]

/-- Unsubscribing removes one key. -/
theorem get?_unsubscribe (t : Subscriptions) (conn : UInt64) (rerid : Int64)
    (key : SubscriptionKey) :
    (t.unsubscribe conn rerid).2.subs.get? key =
      if key = (conn, rerid) then none else t.subs.get? key := by
  cases h : t.subs.get? (conn, rerid) with
  | none =>
    rw [unsubscribe_of_free h]
    split
    · next hkey => rw [hkey, h]
    · rfl
  | some s =>
    rw [unsubscribe_of_taken h]
    exact FinMap.get?_erase _ _ _

/-- Unsubscribing keeps the tables consistent. -/
theorem Consistent.unsubscribe {t : Subscriptions} (h : Consistent t) (conn : UInt64)
    (rerid : Int64) : Consistent (t.unsubscribe conn rerid).2 := by
  cases hs : t.subs.get? (conn, rerid) with
  | none =>
    rw [unsubscribe_of_free hs]
    exact h
  | some s =>
    rw [unsubscribe_of_taken hs]
    have hremoved := h.toOpIndexed.remove hs
    constructor
    · exact ⟨hremoved.stored, hremoved.mem_byOp, hremoved.tidy_byOp⟩
    · constructor
      · intro conn' rerid'
        rw [mem_indexItems_indexErase h.tidy_byConn, h.mem_byConn]
        simp only [removeStored, FinMap.get?_erase, Prod.mk.injEq]
        split <;> simp [*]
      · exact h.tidy_byConn.indexErase _ _

/-! ## Cleaning up a connection -/

/-- A step of a clean-up: the subscription under the key is taken out if there is one. -/
theorem dropAll_cons (conn : UInt64) (rerid : Int64) (rest : List Int64) (t : Subscriptions) :
    dropAll conn (rerid :: rest) t =
      match t.subs.get? (conn, rerid) with
      | none => dropAll conn rest t
      | some s =>
        ((dropAll conn rest (t.removeStored (conn, rerid) s)).1 + 1,
          (dropAll conn rest (t.removeStored (conn, rerid) s)).2) := rfl

/-- Dropping subscriptions keeps the index of the operations. -/
theorem dropAll_opIndexed (conn : UInt64) (rerids : List Int64) {t : Subscriptions}
    (h : OpIndexed t) : OpIndexed (dropAll conn rerids t).2 := by
  induction rerids generalizing t with
  | nil => exact h
  | cons rerid rest ih =>
    rw [dropAll_cons]
    cases hs : t.subs.get? (conn, rerid) with
    | none => exact ih h
    | some s => exact ih (h.remove hs)

/-- Dropping subscriptions leaves the index of the connections to the caller. -/
theorem dropAll_byConn (conn : UInt64) (rerids : List Int64) (t : Subscriptions) :
    (dropAll conn rerids t).2.byConn = t.byConn := by
  induction rerids generalizing t with
  | nil => rfl
  | cons rerid rest ih =>
    rw [dropAll_cons]
    cases hs : t.subs.get? (conn, rerid) with
    | none => exact ih t
    | some s => exact ih (t.removeStored (conn, rerid) s)

/-- A clean-up takes out the keys of the connection with the given ids. -/
theorem get?_dropAll (conn : UInt64) (rerids : List Int64) (t : Subscriptions)
    (key : SubscriptionKey) :
    (dropAll conn rerids t).2.subs.get? key =
      if key.1 = conn ∧ key.2 ∈ rerids then none else t.subs.get? key := by
  induction rerids generalizing t with
  | nil => simp [dropAll]
  | cons rerid rest ih =>
    obtain ⟨conn', rerid'⟩ := key
    rw [dropAll_cons]
    cases hs : t.subs.get? (conn, rerid) with
    | none =>
      rw [ih t]
      -- an id without a subscription changes nothing, and its key was free before
      by_cases hkey : conn' = conn ∧ rerid' = rerid
      · obtain ⟨rfl, rfl⟩ := hkey
        simp [hs]
      · have hiff : (conn' = conn ∧ rerid' ∈ rerid :: rest) ↔ (conn' = conn ∧ rerid' ∈ rest) := by
          rw [List.mem_cons]
          tauto
        simp only [hiff]
    | some s =>
      simp only
      rw [ih (t.removeStored (conn, rerid) s), removeStored, FinMap.get?_erase]
      simp only [Prod.mk.injEq, List.mem_cons]
      by_cases hc : conn' = conn <;> by_cases hr : rerid' = rerid <;> simp [hc, hr]

/-- A clean-up counts the ids that it is given when each stands for a subscription. -/
theorem dropAll_fst (conn : UInt64) {rerids : List Int64} {t : Subscriptions}
    (hnodup : rerids.Nodup) (hall : ∀ rerid ∈ rerids, (t.subs.get? (conn, rerid)).isSome) :
    (dropAll conn rerids t).1 = rerids.length := by
  induction rerids generalizing t with
  | nil => rfl
  | cons rerid rest ih =>
    rw [List.nodup_cons] at hnodup
    obtain ⟨s, hs⟩ := Option.isSome_iff_exists.mp (hall rerid List.mem_cons_self)
    rw [dropAll_cons, hs]
    -- the ids that are left still stand for subscriptions, since none of them is the first one
    have hrest : ∀ r ∈ rest, ((t.removeStored (conn, rerid) s).subs.get? (conn, r)).isSome := by
      intro r hr
      rw [removeStored, FinMap.get?_erase, if_neg]
      · exact hall r (List.mem_cons_of_mem _ hr)
      · rintro ⟨rfl⟩
        exact hnodup.1 hr
    simp only [List.length_cons]
    rw [ih hnodup.2 hrest]

/-- A purge drops the subscriptions that the index of the connection has. -/
theorem purge_eq (t : Subscriptions) (conn : UInt64) :
    t.purge conn = dropAll conn (indexItems t.byConn conn)
      (if (t.byConn.get? conn).isSome then { t with byConn := t.byConn.erase conn } else t) := by
  rw [purge]
  cases h : t.byConn.get? conn with
  | none => simp [indexItems, h, dropAll]
  | some rerids => simp [indexItems, h]

/-- Purging takes out every key of the connection, and no other. -/
theorem Consistent.get?_purge {t : Subscriptions} (h : Consistent t) (conn : UInt64)
    (key : SubscriptionKey) :
    (t.purge conn).2.subs.get? key = if key.1 = conn then none else t.subs.get? key := by
  have hsubs : (if (t.byConn.get? conn).isSome then
      { t with byConn := t.byConn.erase conn } else t).subs = t.subs := by
    split <;> rfl
  obtain ⟨conn', rerid⟩ := key
  rw [purge_eq, get?_dropAll, hsubs]
  by_cases hc : conn' = conn
  · subst hc
    by_cases hmem : rerid ∈ indexItems t.byConn conn'
    · simp [hmem]
    · -- an id that is not listed has no subscription
      have hnone : t.subs.get? (conn', rerid) = none := by
        rw [h.mem_byConn] at hmem
        simpa using hmem
      simp [hnone]
  · simp [hc]

/-- Purging counts the ids that the index lists for the connection. -/
theorem Consistent.purge_fst {t : Subscriptions} (h : Consistent t) (conn : UInt64) :
    (t.purge conn).1 = (indexItems t.byConn conn).length := by
  rw [purge_eq]
  apply dropAll_fst conn (h.tidy_byConn.nodup_indexItems conn)
  intro rerid hmem
  have hsome := h.mem_byConn.mp hmem
  split <;> exact hsome

/-- A purge keeps the tables consistent. -/
theorem Consistent.purge {t : Subscriptions} (h : Consistent t) (conn : UInt64) :
    Consistent (t.purge conn).2 := by
  have hget := h.get?_purge conn
  constructor
  · rw [purge_eq]
    apply dropAll_opIndexed
    split
    · exact ⟨h.stored, h.mem_byOp, h.tidy_byOp⟩
    · exact h.toOpIndexed
  -- the ids of the connection go in one piece, those of the others stay
  · have hbyConn : ∀ conn', indexItems (t.purge conn).2.byConn conn' =
        if conn' = conn then [] else indexItems t.byConn conn' := by
      intro conn'
      rw [purge_eq, dropAll_byConn]
      split
      · exact indexItems_erase _ _ _
      · next hnone =>
        split
        · next hc =>
          have hget : t.byConn.get? conn = none := by simpa using hnone
          rw [hc, indexItems, hget, Option.getD_none]
        · rfl
    constructor
    · intro conn' rerid
      rw [hbyConn, hget]
      split
      · simp
      · exact h.mem_byConn
    · rw [purge_eq, dropAll_byConn]
      split
      · exact h.tidy_byConn.erase conn
      · exact h.tidy_byConn

/-! ## Listing the subscriptions of an operation -/

/-- The subscriptions of an operation are those that stand under the keys its index lists. -/
theorem subscribers_eq (t : Subscriptions) (op : String) :
    t.subscribers op = (indexItems t.byOp op).filterMap t.subs.get? := rfl

/-- The subscribers of an operation are the subscriptions stored with it. -/
theorem OpIndexed.mem_subscribers {t : Subscriptions} (h : OpIndexed t) {op : String}
    {s : Subscription} :
    s ∈ t.subscribers op ↔ ∃ key, t.subs.get? key = some s ∧ s.op = op := by
  rw [subscribers_eq, List.mem_filterMap]
  constructor
  · rintro ⟨key, hkey, hs⟩
    obtain ⟨s', hs', hop⟩ := h.mem_byOp.mp hkey
    rw [hs] at hs'
    cases hs'
    exact ⟨key, hs, hop⟩
  · rintro ⟨key, hs, hop⟩
    exact ⟨key, h.mem_byOp.mpr ⟨s, hs, hop⟩, hs⟩

/-- Two keys never hold the same subscription: it carries its key with it. -/
theorem OpIndexed.key_eq {t : Subscriptions} (h : OpIndexed t) {key : SubscriptionKey}
    {s : Subscription} (hs : t.subs.get? key = some s) : key = (s.link.id, s.rerid) := by
  obtain ⟨conn, rerid⟩ := key
  obtain ⟨hr, hc⟩ := h.stored hs
  rw [hr, hc]

/-- No subscription is a subscriber twice. -/
theorem OpIndexed.nodup_subscribers {t : Subscriptions} (h : OpIndexed t) (op : String) :
    (t.subscribers op).Nodup := by
  rw [subscribers_eq]
  apply List.Nodup.filterMap _ (h.tidy_byOp.nodup_indexItems op)
  intro key key' s hs hs'
  rw [h.key_eq hs, h.key_eq hs']

end Subscriptions

end WsGateway
