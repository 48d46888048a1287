import Mathlib.Algebra.BigOperators.Group.Finset.Basic
import Mathlib.Data.Set.Card
import WsGateway.Proofs.Links.Instances
import WsGateway.Proofs.Links.Responding
import WsGateway.Proofs.Subscriptions.PlainMap

/-!
# Publishing in any order

The subscribers of an operation come from an index whose order means nothing, and the loop over them
would stop at the first error (`Subscriptions.visit`). It never meets one (`visit_eq`), and in every
order each connection gets as many events as it has subscriptions and places
(`Subscriptions.share`): which of its subscriptions they belong to may depend on the order, how many
they are does not. `Publisher.publish_in_any_order` says so of every table that calls can lead to,
with connections in any state, and follows the instance ids of all responses made before.
-/

namespace WsGateway

namespace Subscriptions

/-! ## The loop over the subscribers -/

/-- Subscriptions are visited in order: an event is made for each one, gets its operation and its
content, and is sent. An error ends the loop. -/
def visit (op : String) (v : Json.Value) : List Subscription → Links → Except Error Nat × Links
  | [], l => (.ok 0, l)
  | s :: rest, l =>
    let (instanceId, l) := l.freshInstance
    match ((Response.create instanceId s.rerid .event).setOp op).setContent (.value v) with
    | .error e => (.error e, l)
    | .ok r =>
      match (Reply.mk r s.link).send l with
      | (.error e, l) => (.error e, l)
      | (.ok deliveries, l) =>
        match visit op v rest l with
        | (.error e, l) => (.error e, l)
        | (.ok n, l) => (.ok (deliveries.length + n), l)

/-- A content is published to subscriptions that are visited in order. -/
def publishTo (order : List Subscription) (op : String) (c : Content) (l : Links) :
    Except Error Nat × Links :=
  match c.toValue with
  | .error message => (.error (.internal (op ++ " event encode failed: " ++ message)), l)
  | .ok v => visit op v order l

/-- A response with a content is sent as one frame. -/
theorem send_content (instanceId : UInt64) (rerid : Int64) (kind : ResponseKind)
    (op? : Option String) (v : Json.Value) (k : Link) (l : Links) :
    (Reply.mk ⟨instanceId, rerid, kind, op?, .content v⟩ k).send l =
      (.ok (l.write k (.text (Response.print ⟨instanceId, rerid, kind, op?, .content v⟩))).1.toList,
        (l.write k (.text (Response.print ⟨instanceId, rerid, kind, op?, .content v⟩))).2) := by
  simp [Reply.send, Reply.sendTo, Reply.broadcast, Response.encode, Response.isStreaming]

/-- The loop never ends early: an event that has just been made takes every value, and can be
sent. -/
theorem visit_eq (op : String) (v : Json.Value) (order : List Subscription) (l : Links) :
    visit op v order l = (.ok (notifyAll op v order l).1, (notifyAll op v order l).2) := by
  induction order generalizing l with
  | nil => rfl
  | cons s rest ih =>
    have hset : ∀ instanceId, ((Response.create instanceId s.rerid .event).setOp op).setContent
        (.value v) = .ok ⟨instanceId, s.rerid, .event, some op, .content v⟩ := fun _ => rfl
    simp only [visit, hset, send_content, ih]
    rfl

/-- A publication goes to the subscribers in the order in which the index has them. -/
theorem publish_eq (t : Subscriptions) (op : String) (c : Content) (l : Links) :
    t.publish op c l = publishTo (t.subscribers op) op c l := by
  rw [publish, publishTo]
  cases c.toValue with
  | error message => rfl
  | ok v => exact (visit_eq op v _ l).symm

/-! ## What a connection gets -/

section Order

variable {op : String} {v : Json.Value} {order : List Subscription}

/-- Subscriptions that differ get consecutive instance ids. -/
theorem events_eq (hnodup : order.Nodup) (i : UInt64) :
    events op v i order = order.map fun s =>
      (s.link, eventFrame op v (i + UInt64.ofNat (order.idxOf s)) s) := by
  induction order generalizing i with
  | nil => rfl
  | cons s rest ih =>
    obtain ⟨hs, hrest⟩ := List.nodup_cons.mp hnodup
    have hfirst : i + UInt64.ofNat 0 = i := UInt64.add_zero i
    rw [events, ih hrest, List.map_cons, List.idxOf_cons_self, hfirst, List.cons_inj_right]
    refine List.map_congr_left fun s' hs' => ?_
    have hne : s ≠ s' := fun heq => hs (heq ▸ hs')
    rw [List.idxOf_cons_ne _ hne, Nat.succ_eq_one_add, UInt64.ofNat_add, ← UInt64.add_assoc]
    rfl

/-- The instance ids of the subscriptions are the next ones of the counter. -/
theorem map_number (hnodup : order.Nodup) (i : UInt64) :
    (order.map fun s => i + UInt64.ofNat (order.idxOf s)) = Links.instanceIds i order.length := by
  refine List.ext_getElem (by simp) fun n hn hn' => ?_
  rw [List.length_map] at hn
  simp [Links.instanceIds, hnodup.idxOf_getElem n hn]

/-- A connection is sent the events of its subscriptions, numbered by their places in the order. -/
theorem eventsFor_eq (hnodup : order.Nodup) (i : UInt64) (k : Link) :
    eventsFor k (events op v i order) = (order.filter fun s => s.link.slot = k.slot).map fun s =>
      eventFrame op v (i + UInt64.ofNat (order.idxOf s)) s := by
  rw [eventsFor, events_eq hnodup, List.filter_map, List.map_map]
  rfl

def eventText (op : String) (v : Json.Value) (instanceId : UInt64) (rerid : Int64) : String :=
  "\x7b\"id\":" ++ toString instanceId.toNat ++ ",\"rerid\":" ++ toString rerid.toInt
    ++ ",\"t\":\"sub\",\"op\":" ++ Json.printString op ++ ",\"msg\":" ++ v.print ++ "\x7d"

/-- The text of an event is the literal one. -/
theorem eventFrame_eq (op : String) (v : Json.Value) (instanceId : UInt64) (s : Subscription) :
    eventFrame op v instanceId s = .text (eventText op v instanceId s.rerid) := by
  have hkind : ",\"t\":" ++ Json.printString ResponseKind.event.code ++ ",\"op\":" =
      ",\"t\":\"sub\",\"op\":" := by decide +kernel
  rw [eventFrame, Response.print_eq, eventText, ← hkind]
  simp only [String.append_assoc]
  rfl

/-! ## How many events there are -/

theorem length_conns_write (l : Links) (k : Link) (f : Frame) :
    (l.write k f).2.conns.length = l.conns.length := by
  simp only [Links.write]
  split
  · rfl
  · split <;> simp [Links.modify]

/-- One subscription counts if its connection has room. -/
theorem notify_fst (op : String) (v : Json.Value) (s : Subscription) (l : Links) :
    (notify op v s l).1 = min (l.free s.link) 1 := by
  have hget : l.freshInstance.2.get? s.link = l.get? s.link := rfl
  simp only [notify, Links.free]
  cases hc : l.get? s.link with
  | none =>
    rw [Links.write_of_none (hget.trans hc)]
    rfl
  | some c =>
    show _ = min c.free 1
    rcases Nat.eq_zero_or_pos c.free with hzero | hpos
    · rw [Links.write_of_free_eq_zero (hget.trans hc) hzero, hzero]
      rfl
    · rw [Links.write_of_free_pos (hget.trans hc) hpos, Nat.min_eq_right hpos]
      rfl

/-- **How many events a round queues**, connection by connection. By induction on the
subscriptions: one more adds one to the sum just where its connection has a place. -/
theorem notifyAll_fst (op : String) (v : Json.Value) (order : List Subscription) (l : Links) :
    (notifyAll op v order l).1 = ∑ slot ∈ Finset.range l.conns.length,
      min (l.free ⟨slot, 0⟩) (order.countP fun s => s.link.slot = slot) := by
  induction order generalizing l with
  | nil => simp [notifyAll]
  | cons s rest ih =>
    have hcons : (notifyAll op v (s :: rest) l).1 =
        (notify op v s l).1 + (notifyAll op v rest (notify op v s l).2).1 := rfl
    have hlength : (notify op v s l).2.conns.length = l.conns.length := length_conns_write _ _ _
    have hone : (notify op v s l).1 = ∑ slot ∈ Finset.range l.conns.length,
        if slot = s.link.slot then min (l.free ⟨slot, 0⟩) 1 else 0 := by
      have hfree : l.free ⟨s.link.slot, 0⟩ = l.free s.link := rfl
      rw [notify_fst, Finset.sum_ite_eq', hfree]
      split
      · rfl
      · next hmem =>
        -- behind the last connection there is no room
        rw [Finset.mem_range, Nat.not_lt] at hmem
        simp [Links.free, Links.get?, List.getElem?_eq_none hmem]
    rw [hcons, ih, hlength, hone, ← Finset.sum_add_distrib]
    refine Finset.sum_congr rfl fun slot _ => ?_
    rw [free_notify, List.countP_cons]
    by_cases hslot : slot = s.link.slot
    · subst hslot
      simp only [if_true, decide_true]
      omega
    · simp [hslot, Ne.symm hslot]

end Order

/-! ## The subscriptions of a connection -/

/-- The keys of the subscriptions that a connection has of an operation. -/
def heldAt (t : Subscriptions) (op : String) (k : Link) : Set SubscriptionKey :=
  {key | ∃ s, t.subs.get? key = some s ∧ s.op = op ∧ s.link.slot = k.slot}

/-- The number of events that a connection gets: one for every subscription that it has of the
operation, but no more than it accepts. -/
noncomputable def share (t : Subscriptions) (op : String) (l : Links) (k : Link) : Nat :=
  min (l.free k) (t.heldAt op k).ncard

/-- Counting the subscribers at a connection counts its keys, in whatever order they stand. -/
theorem OpIndexed.countP_eq_ncard {t : Subscriptions} (h : OpIndexed t) {op : String}
    {order : List Subscription} (horder : order.Perm (t.subscribers op)) (k : Link) :
    (order.countP fun s => s.link.slot = k.slot) = (t.heldAt op k).ncard := by
  have hmem : ∀ s, s ∈ (order.filter fun s => s.link.slot = k.slot) ↔
      t.subs.get? (s.link.id, s.rerid) = some s ∧ s.op = op ∧ s.link.slot = k.slot := by
    intro s
    rw [List.mem_filter, horder.mem_iff, h.mem_subscribers, decide_eq_true_eq]
    constructor
    · rintro ⟨⟨key, hget, hop⟩, hslot⟩
      rw [h.key_eq hget] at hget
      exact ⟨hget, hop, hslot⟩
    · rintro ⟨hget, hop, hslot⟩
      exact ⟨⟨_, hget, hop⟩, hslot⟩
  have hnodup : (order.filter fun s => s.link.slot = k.slot).Nodup :=
    (horder.nodup_iff.mpr (h.nodup_subscribers op)).filter _
  -- Counted by keys: two subscribers with one key are one subscription.
  have hlength : ((order.countP fun s => s.link.slot = k.slot : Nat) : ℕ∞) =
      (t.heldAt op k).encard := by
    rw [List.countP_eq_length_filter,
      ← List.length_map fun s : Subscription => (s.link.id, s.rerid)]
    refine length_eq_encard (hnodup.map_on ?_) fun key => ?_
    · intro s hs s' hs' heq
      have hget := ((hmem s).mp hs).1
      rw [heq, ((hmem s').mp hs').1] at hget
      exact (Option.some.inj hget).symm
    · rw [List.mem_map]
      constructor
      · rintro ⟨s, hs, rfl⟩
        exact ⟨s, (hmem s).mp hs⟩
      · rintro ⟨s, hget, hrest⟩
        have hkey := h.key_eq hget
        subst hkey
        exact ⟨s, (hmem s).mpr ⟨hget, hrest⟩, rfl⟩
  rw [Set.ncard_def, ← hlength]
  rfl

end Subscriptions

/-! ## Everything that was before -/

/-- Subscriptions among everything that uses the same connections and the same counter, with the
instance ids that were given to responses so far. -/
structure Publisher where
  table : Subscriptions
  links : Links
  issued : List UInt64

namespace Publisher

/-- What can happen around a publication: a call, a response made elsewhere, other connections. -/
inductive Move where
  /-- The subscriptions are called. -/
  | call (c : Subscriptions.Call)
  /-- A response is made elsewhere. -/
  | response
  /-- Connections come and go, and their queues fill and empty. -/
  | connections (conns : List Connection)

/-- The instance ids that a call gives: one for every subscriber that is sent an event. -/
def given (t : Subscriptions) (l : Links) : Subscriptions.Call → List UInt64
  | .publish op c =>
    match c.toValue with
    | .error _ => []
    | .ok _ => Links.instanceIds l.nextInstance (t.subscribers op).length
  | _ => []

def move (p : Publisher) : Move → Publisher
  | .call c =>
    let (_, t, l) := p.table.call p.links c
    ⟨t, l, p.issued ++ given p.table p.links c⟩
  | .response =>
    let (instanceId, l) := p.links.freshInstance
    ⟨p.table, l, p.issued ++ [instanceId]⟩
  | .connections conns => { p with links := { p.links with conns := conns } }

def start (l : Links) : Publisher := ⟨.empty, l, []⟩

def run (moves : List Move) (p : Publisher) : Publisher := moves.foldl move p

/-- The ids that were given are the first ones of the counter. -/
structure Sound (first : UInt64) (p : Publisher) : Prop where
  consistent : Subscriptions.Consistent p.table
  issued : p.issued = Links.instanceIds first p.issued.length
  next : p.links.nextInstance = first + UInt64.ofNat p.issued.length

section Moves

variable {first : UInt64} {p : Publisher}

/-- Before any notification nothing was sent. -/
theorem sound_start (l : Links) : Sound l.nextInstance (start l) where
  consistent := Subscriptions.consistent_empty
  issued := rfl
  next := (UInt64.add_zero _).symm

/-- What gives out the next ids of the counter is sound. -/
theorem Sound.give (hs : Sound first p) {t : Subscriptions} {l : Links} {n : Nat}
    (ht : Subscriptions.Consistent t)
    (hl : l.nextInstance = p.links.nextInstance + UInt64.ofNat n) :
    Sound first ⟨t, l, p.issued ++ Links.instanceIds p.links.nextInstance n⟩ where
  consistent := ht
  issued := by
    rw [List.length_append, Links.length_instanceIds, Links.instanceIds_append, ← hs.issued,
      ← hs.next]
  next := by
    rw [List.length_append, Links.length_instanceIds, UInt64.ofNat_add, ← UInt64.add_assoc,
      ← hs.next, hl]

/-- A publication takes one id for each subscriber, sent or not. -/
theorem nextInstance_notifyAll (op : String) (v : Json.Value) (subs : List Subscription)
    (l : Links) : (Subscriptions.notifyAll op v subs l).2.nextInstance =
      l.nextInstance + UInt64.ofNat subs.length := by
  induction subs generalizing l with
  | nil => exact (UInt64.add_zero _).symm
  | cons s rest ih =>
    have hcons : (Subscriptions.notifyAll op v (s :: rest) l).2 =
        (Subscriptions.notifyAll op v rest (Subscriptions.notify op v s l).2).2 := rfl
    rw [hcons, ih, Subscriptions.nextInstance_notify, List.length_cons, Nat.add_comm,
      UInt64.ofNat_add, ← UInt64.add_assoc]
    rfl

/-- A call moves the counter by the ids that it gives. -/
theorem given_eq (t : Subscriptions) (l : Links) (c : Subscriptions.Call) :
    ∃ n, given t l c = Links.instanceIds l.nextInstance n ∧
      (t.call l c).2.2.nextInstance = l.nextInstance + UInt64.ofNat n := by
  have hidle : l.nextInstance = l.nextInstance + UInt64.ofNat 0 := (UInt64.add_zero _).symm
  -- Only a publication that encodes takes ids, one for each subscriber.
  cases c with
  | publish op c =>
    simp only [given, Subscriptions.call, Subscriptions.publish]
    cases c.toValue with
    | error message => exact ⟨0, rfl, hidle⟩
    | ok v => exact ⟨_, rfl, nextInstance_notifyAll op v _ l⟩
  | subscribe k rerid op =>
    refine ⟨0, rfl, ?_⟩
    simp only [Subscriptions.call]
    split <;> exact hidle
  | unsubscribe conn rerid => exact ⟨0, rfl, hidle⟩
  | purge conn => exact ⟨0, rfl, hidle⟩
  | subscribers op => exact ⟨0, rfl, hidle⟩
  | contains conn rerid => exact ⟨0, rfl, hidle⟩
  | size => exact ⟨0, rfl, hidle⟩

/-- **One move** keeps the subscriptions consistent, and gives the next ids of the counter. -/
theorem Sound.move (hs : Sound first p) (m : Move) : Sound first (p.move m) := by
  cases m with
  | call c =>
    obtain ⟨n, hgiven, hnext⟩ := given_eq p.table p.links c
    have hstep := hs.give (Subscriptions.call_conforms hs.consistent p.links c).1 hnext
    rw [← hgiven] at hstep
    exact hstep
  | response =>
    have hlinks : p.links.freshInstance.2.nextInstance =
        p.links.nextInstance + UInt64.ofNat 1 := rfl
    have hone : Links.instanceIds p.links.nextInstance 1 = [p.links.nextInstance] := by
      rw [Links.instanceIds_succ]
      exact congrArg List.singleton (UInt64.add_zero _)
    have hstep := hs.give hs.consistent hlinks
    rw [hone] at hstep
    exact hstep
  | connections conns => exact ⟨hs.consistent, hs.issued, hs.next⟩

/-- The invariant survives a run. -/
theorem Sound.run (hs : Sound first p) (moves : List Move) : Sound first (p.run moves) := by
  induction moves generalizing p with
  | nil => exact hs
  | cons m rest ih => exact ih (hs.move m)

end Moves

/-! ## One publish -/

/-- What a publish does to the connections: how many events it counts, and what it queues. -/
structure Delivers (p : Publisher) (op : String) (v : Json.Value) (n : Nat) (l : Links) : Prop where
  /-- The events are counted that the connections get. -/
  total : n = ∑ slot ∈ Finset.range p.links.conns.length,
    p.table.share op p.links ⟨slot, 0⟩
  /-- Every subscription has one instance id for its event, which no other one has and none of the
  responses before. Each connection gets its share of events, of subscriptions that it has and that
  differ. -/
  queued : ∃ number : Subscription → UInt64,
    (p.issued.length + (p.table.subscribers op).length ≤ 2 ^ 64 →
      ∀ s ∈ p.table.subscribers op, number s ∉ p.issued ∧
        ∀ s' ∈ p.table.subscribers op, number s = number s' → s = s') ∧
    ∀ k, ∃ chosen : List Subscription, chosen.Nodup ∧
      (∀ s ∈ chosen, s ∈ p.table.subscribers op ∧ s.link.slot = k.slot) ∧
      chosen.length = p.table.share op p.links k ∧
      l.frames k = p.links.frames k ++
        chosen.map fun s => .text (Subscriptions.eventText op v (number s) s.rerid)
  /-- A connection without a subscription of the operation is left alone. -/
  untouched : ∀ k, p.table.heldAt op k = ∅ → l.get? k = p.links.get? k

/-- A sound publisher delivers to its subscribers in every order. -/
theorem Sound.delivers {first : UInt64} {p : Publisher} (hs : Sound first p) {op : String}
    (v : Json.Value) {order : List Subscription} (horder : order.Perm (p.table.subscribers op)) :
    Delivers p op v (Subscriptions.notifyAll op v order p.links).1
      (Subscriptions.notifyAll op v order p.links).2 := by
  have hnodup : order.Nodup := horder.nodup_iff.mpr (hs.consistent.nodup_subscribers op)
  have hcount := hs.consistent.countP_eq_ncard horder
  constructor
  · rw [Subscriptions.notifyAll_fst]
    refine Finset.sum_congr rfl fun slot _ => ?_
    rw [Subscriptions.share, ← hcount]
  · refine ⟨fun s => p.links.nextInstance + UInt64.ofNat (order.idxOf s), fun hlength => ?_,
      fun k => ?_⟩
    · rw [← horder.length_eq] at hlength
      -- the ids before and those of the events are the first ones of the counter
      have hids := Links.nodup_instanceIds first hlength
      rw [Links.instanceIds_append, ← hs.issued, ← hs.next, ← Subscriptions.map_number hnodup,
        List.nodup_append] at hids
      obtain ⟨-, hinj, hfresh⟩ := hids
      intro s hmem
      rw [← horder.mem_iff] at hmem
      refine ⟨fun hissued => hfresh _ hissued _ (List.mem_map_of_mem hmem) rfl,
        fun s' hmem' heq => ?_⟩
      exact List.inj_on_of_nodup_map hinj hmem (horder.mem_iff.mpr hmem') heq
    · refine ⟨(order.filter fun s => s.link.slot = k.slot).take (p.links.free k),
        (hnodup.filter _).take, fun s hmem => ?_, ?_, ?_⟩
      · obtain ⟨horigin, hslot⟩ := List.mem_filter.mp (List.mem_of_mem_take hmem)
        exact ⟨horder.mem_iff.mp horigin, of_decide_eq_true hslot⟩
      · rw [List.length_take, ← List.countP_eq_length_filter, hcount, Subscriptions.share]
      · simp only [Subscriptions.frames_notifyAll, Subscriptions.eventsFor_eq hnodup,
          Subscriptions.eventFrame_eq, List.map_take]
  · intro k hnone
    have hno : (order.filter fun s => s.link.slot = k.slot) = [] := by
      rw [← List.length_eq_zero_iff, ← List.countP_eq_length_filter, hcount, hnone, Set.ncard_empty]
    rw [Subscriptions.get?_notifyAll, Subscriptions.eventsFor_eq hnodup, hno]
    exact congrFun Option.map_id (p.links.get? k)

/-- **Publishing does not depend on the order.** Whatever was before, a call answers as the loop
over the subscribers does in the order of the index. In every order, a content that cannot be
encoded is an error and reaches nobody; any other is delivered without error, with the same numbers
on every connection. The subscriptions stay as they are. -/
theorem publish_in_any_order (moves : List Move) (first : Links) (op : String) (c : Content) :
    let p := (start first).run moves
    let t := p.table
    let result := Subscriptions.publishTo (t.subscribers op) op c p.links
    t.call p.links (.publish op c) = (.published result.1, t, result.2) ∧
      ∀ order : List Subscription, order.Perm (t.subscribers op) →
        (∀ message, c.toValue = .error message → Subscriptions.publishTo order op c p.links =
          (.error (.internal (op ++ " event encode failed: " ++ message)), p.links)) ∧
        ∀ v, c.toValue = .ok v → ∃ n l,
          Subscriptions.publishTo order op c p.links = (.ok n, l) ∧ Delivers p op v n l := by
  intro p t result
  have hs : Sound first.nextInstance p := (sound_start first).run moves
  refine ⟨?_, fun order horder => ⟨fun message hc => ?_, fun v hc => ?_⟩⟩
  · rw [Subscriptions.call, Subscriptions.publish_eq]
  · rw [Subscriptions.publishTo, hc]
  · refine ⟨_, _, ?_, hs.delivers v horder⟩
    rw [Subscriptions.publishTo, hc]
    exact Subscriptions.visit_eq op v order p.links

end Publisher

end WsGateway
