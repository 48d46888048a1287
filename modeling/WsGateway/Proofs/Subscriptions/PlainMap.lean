import Mathlib.Data.Set.Card
import WsGateway.Proofs.Subscriptions.Consistency

/-!
# Subscriptions answer as a plain map

Seen from outside, the subscriptions with their two indexes are one map from the key of a
subscription to the subscription. `Conforms` says what such a map answers to each call and what
becomes of it. `call_conforms` shows it for one call on consistent subscriptions, and
`run_conforms` for every sequence of calls on subscriptions that start empty: in every order, from
any connections and with any ids and operations.
-/

namespace WsGateway

namespace Subscriptions

/-! ## Calls -/

/-- One call on the subscriptions. -/
inductive Call where
  | subscribe (k : Link) (rerid : Int64) (op : String)
  | unsubscribe (conn : UInt64) (rerid : Int64)
  | purge (conn : UInt64)
  | publish (op : String) (c : Content)
  | subscribers (op : String)
  | contains (conn : UInt64) (rerid : Int64)
  | size

/-- What a call answers. -/
inductive Answer where
  | subscribed (result : Except Error Unit)
  | cancelled (s : Option Subscription)
  | counted (n : Nat)
  | published (result : Except Error Nat)
  | listed (subs : List Subscription)
  | held (b : Bool)

/-- A call is answered; publishing puts frames in the queues of connections. -/
def call (t : Subscriptions) (l : Links) : Call → Answer × Subscriptions × Links
  | .subscribe k rerid op =>
    match t.subscribe k rerid op with
    | .ok t' => (.subscribed (.ok ()), t', l)
    | .error e => (.subscribed (.error e), t, l)
  | .unsubscribe conn rerid =>
    (.cancelled (t.unsubscribe conn rerid).1, (t.unsubscribe conn rerid).2, l)
  | .purge conn => (.counted (t.purge conn).1, (t.purge conn).2, l)
  | .publish op c => (.published (t.publish op c l).1, t, (t.publish op c l).2)
  | .subscribers op => (.listed (t.subscribers op), t, l)
  | .contains conn rerid => (.held (t.contains conn rerid), t, l)
  | .size => (.counted t.size, t, l)

/-- Calls are answered one after another. -/
def run : List Call → Subscriptions → Links → List Answer × Subscriptions × Links
  | [], t, l => ([], t, l)
  | c :: rest, t, l =>
    let (a, t, l) := t.call l c
    let (as, t, l) := run rest t l
    (a :: as, t, l)

/-! ## The plain map -/

/-- Subscriptions by their keys, and nothing else. -/
abbrev PlainMap := SubscriptionKey → Option Subscription

namespace PlainMap

def ofOp (m : PlainMap) (op : String) : Set SubscriptionKey := {key | ∃ s ∈ m key, s.op = op}

/-- What a plain map answers to a call, and the map after it. -/
def Conforms (m : PlainMap) : Call → Answer → PlainMap → Prop
  | .subscribe k rerid op, .subscribed result, m' =>
    if (m (k.id, rerid)).isSome then result = .error (duplicateError rerid) ∧ m' = m
    else result = .ok () ∧ m' = Function.update m (k.id, rerid) (some ⟨rerid, op, k⟩)
  | .unsubscribe conn rerid, .cancelled s, m' =>
    s = m (conn, rerid) ∧ m' = Function.update m (conn, rerid) none
  | .purge conn, .counted n, m' =>
    n = {key | key.1 = conn ∧ (m key).isSome}.encard ∧
      m' = fun key => if key.1 = conn then none else m key
  | .publish op c, .published result, m' =>
    (∀ n, result = .ok n → n ≤ (m.ofOp op).encard) ∧
      ((∃ e, result = .error e) ↔ ∃ message, c.toValue = .error message) ∧ m' = m
  | .subscribers op, .listed subs, m' =>
    subs.Nodup ∧ (∀ s, s ∈ subs ↔ ∃ key, m key = some s ∧ s.op = op) ∧ m' = m
  | .contains conn rerid, .held b, m' => b = (m (conn, rerid)).isSome ∧ m' = m
  | .size, .counted n, m' => n = {key | (m key).isSome}.encard ∧ m' = m
  | _, _, _ => False

/-- What a plain map answers to calls one after another, and the map after them. -/
def ConformsAll (m : PlainMap) : List Call → List Answer → PlainMap → Prop
  | [], [], m' => m' = m
  | c :: calls, a :: answers, m' => ∃ m₁ : PlainMap, m.Conforms c a m₁ ∧
      m₁.ConformsAll calls answers m'
  | _, _, _ => False

end PlainMap

/-! ## Counting keys -/

/-- A list without repetitions has as many items as the set that it lists. -/
theorem length_eq_encard {α : Type} {l : List α} {s : Set α} (hl : l.Nodup)
    (hmem : ∀ a, a ∈ l ↔ a ∈ s) : (l.length : ℕ∞) = s.encard := by
  classical
  have hs : s = (l.toFinset : Set α) := by
    ext a
    simp [hmem]
  rw [hs, Set.encard_coe_eq_coe_finsetCard, List.toFinset_card_of_nodup hl]

/-- The size is the number of the keys that are subscribed. -/
theorem size_eq_encard (t : Subscriptions) :
    (t.size : ℕ∞) = {key | (t.subs.get? key).isSome}.encard := by
  have hsize : t.size = t.subs.keys.length := by simp [size, FinMap.size, FinMap.keys]
  rw [hsize]
  exact length_eq_encard t.subs.nodup fun key => FinMap.mem_keys_iff

/-- Purging counts the keys of the connection. -/
theorem Consistent.purge_eq_encard {t : Subscriptions} (h : Consistent t) (conn : UInt64) :
    ((t.purge conn).1 : ℕ∞) =
      {key : SubscriptionKey | key.1 = conn ∧ (t.subs.get? key).isSome}.encard := by
  have hlength : (t.purge conn).1 = ((indexItems t.byConn conn).map (Prod.mk conn)).length := by
    rw [h.purge_fst, List.length_map]
  rw [hlength]
  apply length_eq_encard
  · exact (h.tidy_byConn.nodup_indexItems conn).map fun r r' heq => (Prod.mk.inj heq).2
  · rintro ⟨conn', rerid⟩
    simp only [List.mem_map, Prod.mk.injEq, Set.mem_ofPred_eq]
    constructor
    · rintro ⟨r, hr, rfl, rfl⟩
      exact ⟨rfl, h.mem_byConn.mp hr⟩
    · rintro ⟨rfl, hsome⟩
      exact ⟨rerid, h.mem_byConn.mpr hsome, rfl, rfl⟩

/-- An operation has as many subscribers as there are keys of its subscriptions. -/
theorem OpIndexed.length_subscribers {t : Subscriptions} (h : OpIndexed t) (op : String) :
    ((t.subscribers op).length : ℕ∞) = (PlainMap.ofOp t.subs.get? op).encard := by
  let keyOfSub (s : Subscription) : SubscriptionKey := (s.link.id, s.rerid)
  have hkey : ∀ {s}, s ∈ t.subscribers op → t.subs.get? (keyOfSub s) = some s := by
    intro s hs
    obtain ⟨key, hget, -⟩ := h.mem_subscribers.mp hs
    rw [h.key_eq hget] at hget
    exact hget
  rw [← List.length_map (f := keyOfSub)]
  -- subscribers with the same key are the same, so the keys repeat no more than they do
  apply length_eq_encard
  · apply (h.nodup_subscribers op).map_on
    intro s hs s' hs' heq
    have hget := hkey hs
    rw [heq, hkey hs'] at hget
    exact (Option.some.inj hget).symm
  · intro key
    simp only [List.mem_map, PlainMap.ofOp, Set.mem_ofPred_eq]
    constructor
    · rintro ⟨s, hs, rfl⟩
      obtain ⟨-, -, hop⟩ := h.mem_subscribers.mp hs
      exact ⟨s, hkey hs, hop⟩
    · rintro ⟨s, hget, hop⟩
      exact ⟨s, h.mem_subscribers.mpr ⟨key, hget, hop⟩, (h.key_eq hget).symm⟩

/-- One subscriber accepts one frame at most. -/
theorem notifyAll_fst_le (op : String) (v : Json.Value) (subs : List Subscription) (l : Links) :
    (notifyAll op v subs l).1 ≤ subs.length := by
  induction subs generalizing l with
  | nil => exact Nat.le_refl 0
  | cons s rest ih =>
    have hone : (notify op v s l).1 ≤ 1 := by
      simp only [notify]
      cases (l.freshInstance.2.write s.link _).1 <;> simp
    have hrest := ih (notify op v s l).2
    simp only [notifyAll, List.length_cons]
    omega

/-! ## Calls on consistent subscriptions -/

/-- **One call.** Consistent subscriptions stay consistent, and answer as the plain map that they
stand for. -/
theorem call_conforms {t : Subscriptions} (h : Consistent t) (l : Links) (c : Call) :
    Consistent (t.call l c).2.1 ∧
      PlainMap.Conforms t.subs.get? c (t.call l c).1 (t.call l c).2.1.subs.get? := by
  cases c with
  | subscribe k rerid op =>
    -- whether the key is taken decides the answer
    cases hget : t.subs.get? (k.id, rerid) with
    | some s =>
      have hsome : (t.subs.get? (k.id, rerid)).isSome := by simp [hget]
      have hcall : t.call l (.subscribe k rerid op) =
          (.subscribed (.error (duplicateError rerid)), t, l) := by
        simp only [call, subscribe_of_taken op hsome]
      rw [hcall, PlainMap.Conforms, if_pos hsome]
      exact ⟨h, rfl, rfl⟩
    | none =>
      have hnone : ¬ (t.subs.get? (k.id, rerid)).isSome := by simp [hget]
      obtain ⟨t', ht', hsubs, -, -⟩ := subscribe_of_free op hget
      have hcall : t.call l (.subscribe k rerid op) = (.subscribed (.ok ()), t', l) := by
        simp only [call, ht']
      rw [hcall, PlainMap.Conforms, if_neg hnone]
      refine ⟨h.subscribe ht', rfl, ?_⟩
      funext key
      rw [hsubs, FinMap.get?_insert, Function.update_apply]
  | unsubscribe conn rerid =>
    refine ⟨h.unsubscribe conn rerid, unsubscribe_fst t conn rerid, ?_⟩
    funext key
    simp only [call, get?_unsubscribe, Function.update_apply]
  | purge conn =>
    exact ⟨h.purge conn, h.purge_eq_encard conn, funext fun key => h.get?_purge conn key⟩
  | publish op c =>
    refine ⟨h, ?_, ?_, rfl⟩
    · intro n hn
      simp only [publish] at hn
      cases hc : c.toValue with
      | error message => simp [hc] at hn
      | ok v =>
        rw [← h.length_subscribers op]
        simp only [hc, Except.ok.injEq] at hn
        have hle := notifyAll_fst_le op v (t.subscribers op) l
        rw [hn] at hle
        exact_mod_cast hle
    · simp only [publish]
      cases hc : c.toValue <;> simp
  | subscribers op =>
    exact ⟨h, h.nodup_subscribers op, fun s => h.mem_subscribers, rfl⟩
  | contains conn rerid => exact ⟨h, rfl, rfl⟩
  | size => exact ⟨h, size_eq_encard t, rfl⟩

/-- The first call is made on the tables given and the others on those it left. -/
theorem run_cons (c : Call) (rest : List Call) (t : Subscriptions) (l : Links) :
    run (c :: rest) t l =
      ((t.call l c).1 :: (run rest (t.call l c).2.1 (t.call l c).2.2).1,
        (run rest (t.call l c).2.1 (t.call l c).2.2).2) := rfl

/-- Calls on consistent subscriptions, by induction on the calls: each leaves them consistent for
those that follow. -/
theorem run_conforms_of_consistent (calls : List Call) {t : Subscriptions} (h : Consistent t)
    (l : Links) :
    Consistent (run calls t l).2.1 ∧
      PlainMap.ConformsAll t.subs.get? calls (run calls t l).1 (run calls t l).2.1.subs.get? := by
  induction calls generalizing t l with
  | nil => exact ⟨h, rfl⟩
  | cons c rest ih =>
    obtain ⟨hstep, hanswer⟩ := call_conforms h l c
    obtain ⟨hrest, hanswers⟩ := ih hstep (t.call l c).2.2
    rw [run_cons]
    exact ⟨hrest, _, hanswer, hanswers⟩

/-- **Every sequence of calls.** On subscriptions that start empty, the three maps correspond
exactly after any calls, and every call on the way was answered as a plain map answers it. -/
theorem run_conforms (calls : List Call) (l : Links) :
    Consistent (run calls empty l).2.1 ∧
      PlainMap.ConformsAll (fun _ => none) calls (run calls empty l).1
        (run calls empty l).2.1.subs.get? :=
  run_conforms_of_consistent calls consistent_empty l

end Subscriptions

end WsGateway
