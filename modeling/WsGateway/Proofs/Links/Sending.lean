import Mathlib.Data.List.Induction
import WsGateway.Proofs.Subscriptions.Publishing

/-!
# Sending a reply to several connections

A reply is sent to its targets one after another. Targets may occur more than once, and copies that
were sent to a connection take up its room, so whether a target is served depends on those before
it. `Reply.Delivers` says which targets are served, which deliveries are returned for them, and what
becomes of each connection; it holds of every list of targets and of all connections
(`Reply.delivers_broadcast`). A reply that is being streamed is refused before anything is written,
so the outcome of sending is known in full (`Reply.sendTo_delivers`).
-/

namespace WsGateway

namespace Reply

def deliveriesTo (k : Link) (ds : List Delivery) : List Delivery :=
  ds.filter fun d => d.link.slot = k.slot

/-- The number of copies that the connection of a handle gets from targets that are marked as served
or not. -/
def copies (k : Link) (marked : List (Link × Bool)) : Nat :=
  marked.countP fun m => m.2 && decide (m.1.slot = k.slot)

/-- The connection with copies of a text at the end of its queue, under the tickets of the
deliveries. -/
def withCopies (text : String) (ds : List Delivery) (c : Connection) : Connection :=
  { c with
    queue := c.queue ++ ds.map fun d => ⟨.text text, d.ticket⟩
    accepted := c.accepted + ds.length }

/-- A text was sent to targets, which were served or not as they are marked. -/
structure Delivers (text : String) (targets : List Link) (served : List Bool) (l : Links)
    (ds : List Delivery) (l' : Links) : Prop where
  length_eq : served.length = targets.length
  /-- A target is served just if it is writable and has room behind the copies it got before. -/
  served_iff : ∀ i k, targets[i]? = some k →
    (served[i]? = some true ↔ l.isWritable k = true ∧
      l.hasRoomBehind k (copies k ((targets.zip served).take i)) = true)
  /-- The deliveries are those of the targets that were served, in their order. -/
  links : ds.map Delivery.link = ((targets.zip served).filter Prod.snd).map Prod.fst
  /-- Every connection has one copy for each of its deliveries at the end of its queue and is
  otherwise as it was. -/
  get? : ∀ k, l'.get? k = (l.get? k).map (withCopies text (deliveriesTo k ds))
  /-- The deliveries of a connection have the tickets that come next. -/
  tickets : ∀ k c, l.get? k = some c → (deliveriesTo k ds).map Delivery.ticket =
    List.range' c.accepted (deliveriesTo k ds).length
  nextInstance : l'.nextInstance = l.nextInstance

/-- One delivery more is one more of its own connection. -/
theorem deliveriesTo_concat (k : Link) (ds : List Delivery) (d : Delivery) :
    deliveriesTo k (ds ++ [d]) =
      if d.link.slot = k.slot then deliveriesTo k ds ++ [d] else deliveriesTo k ds := by
  rw [deliveriesTo, List.filter_append]
  split
  · next h =>
    rw [List.filter_cons_of_pos (by simpa using h)]
    rfl
  · next h =>
    rw [List.filter_cons_of_neg (by simpa using h), List.filter_nil, List.append_nil]
    rfl

theorem withCopies_nil (text : String) : withCopies text [] = id := by
  funext c
  show { c with queue := c.queue ++ [], accepted := c.accepted } = c
  rw [List.append_nil]

/-- One copy more stands behind those that were queued. -/
theorem withCopies_concat (text : String) (ds : List Delivery) (d : Delivery) (c : Connection) :
    withCopies text (ds ++ [d]) c =
      { withCopies text ds c with
        queue := (withCopies text ds c).queue ++ [⟨.text text, d.ticket⟩]
        accepted := (withCopies text ds c).accepted + 1 } := by
  simp only [withCopies, List.map_append, List.map_cons, List.map_nil, List.append_assoc,
    List.length_append, List.length_singleton, Nat.add_assoc]

/-- A broadcast writes to its first target and then to the others. -/
theorem broadcast_cons (text : String) (k : Link) (rest : List Link) (l : Links) :
    broadcast text (k :: rest) l =
      ((l.write k (.text text)).1.toList ++ (broadcast text rest (l.write k (.text text)).2).1,
        (broadcast text rest (l.write k (.text text)).2).2) := rfl

/-- The last target is written to behind all others. -/
theorem broadcast_concat (text : String) (targets : List Link) (k : Link) (l : Links) :
    broadcast text (targets ++ [k]) l =
      ((broadcast text targets l).1 ++
          ((broadcast text targets l).2.write k (.text text)).1.toList,
        ((broadcast text targets l).2.write k (.text text)).2) := by
  induction targets generalizing l with
  | nil =>
    rw [List.nil_append, broadcast_cons, broadcast, broadcast, List.append_nil]
    rfl
  | cons t rest ih => rw [List.cons_append, broadcast_cons, ih, broadcast_cons, List.append_assoc]

/-! ## One more target -/

namespace Delivers

variable {text : String} {targets : List Link} {served : List Bool} {l l' : Links}
  {ds : List Delivery}

/-- A connection has as many deliveries as it got copies. -/
theorem length_deliveriesTo (h : Delivers text targets served l ds l') (k : Link) :
    (deliveriesTo k ds).length = copies k (targets.zip served) := by
  have hcount : (deliveriesTo k ds).length =
      (ds.map Delivery.link).countP fun k' => k'.slot = k.slot := by
    rw [List.countP_map, deliveriesTo, ← List.countP_eq_length_filter]
    rfl
  rw [hcount, h.links, List.countP_map, List.countP_filter, copies]
  refine List.countP_congr fun m _ => ?_
  rw [Bool.and_comm]
  rfl

/-- A connection without a delivery is as it was. -/
theorem get?_of_unserved (h : Delivers text targets served l ds l') {k : Link}
    (hk : ∀ d ∈ ds, d.link.slot ≠ k.slot) : l'.get? k = l.get? k := by
  have hnone : deliveriesTo k ds = [] := by
    rw [deliveriesTo, List.filter_eq_nil_iff]
    simpa using hk
  rw [h.get?, hnone, withCopies_nil, Option.map_id]
  rfl

/-- One target more comes with its own answer. -/
theorem zip_concat (h : Delivers text targets served l ds l') (k : Link) (b : Bool) :
    (targets ++ [k]).zip (served ++ [b]) = targets.zip served ++ [(k, b)] :=
  List.zip_append h.length_eq.symm

/-- What is known of the targets stays, and the last one is marked as it should be. -/
theorem served_iff_concat (h : Delivers text targets served l ds l') {k : Link} {b : Bool}
    (hb : b = true ↔ l.isWritable k = true ∧
      l.hasRoomBehind k (copies k (targets.zip served)) = true) :
    ∀ i k', (targets ++ [k])[i]? = some k' →
      ((served ++ [b])[i]? = some true ↔ l.isWritable k' = true ∧
        l.hasRoomBehind k' (copies k' (((targets ++ [k]).zip (served ++ [b])).take i)) = true) := by
  have hlength : (targets.zip served).length = targets.length := by
    rw [List.length_zip, h.length_eq, Nat.min_self]
  intro i k' hk'
  rw [h.zip_concat]
  -- The new target is the last one; for the others no copy before them is new.
  by_cases hi : i < targets.length
  · rw [List.getElem?_append_left hi] at hk'
    rw [List.getElem?_append_left (h.length_eq ▸ hi), List.take_append_of_le_length (by omega)]
    exact h.served_iff i k' hk'
  · have hlast : i = targets.length := by
      have hbound := (List.getElem?_eq_some_iff.mp hk').1
      rw [List.length_append, List.length_singleton] at hbound
      omega
    subst hlast
    rw [List.getElem?_concat_length] at hk'
    obtain rfl := Option.some.inj hk'
    rw [List.take_left' hlength, ← h.length_eq, List.getElem?_concat_length, Option.some.injEq]
    exact hb

/-- The last target is passed over. -/
theorem skip (h : Delivers text targets served l ds l') {k : Link}
    (hno : ¬ (l.isWritable k = true ∧ l.hasRoomBehind k (copies k (targets.zip served)) = true)) :
    Delivers text (targets ++ [k]) (served ++ [false]) l ds l' where
  length_eq := by
    rw [List.length_append, List.length_append, h.length_eq]
    rfl
  served_iff := h.served_iff_concat (iff_of_false Bool.false_ne_true hno)
  links := by
    rw [h.links, h.zip_concat, List.filter_append, List.filter_cons_of_neg Bool.false_ne_true,
      List.filter_nil, List.append_nil]
  get? := h.get?
  tickets := h.tickets
  nextInstance := h.nextInstance

/-- The last target gets a copy behind those that its connection got before. -/
theorem serve (h : Delivers text targets served l ds l') {k : Link} {c : Connection}
    (hc : l.get? k = some c)
    (hyes : l.isWritable k = true ∧ l.hasRoomBehind k (copies k (targets.zip served)) = true)
    {d : Delivery} (hd : d = ⟨k, c.accepted + (deliveriesTo k ds).length⟩) :
    Delivers text (targets ++ [k]) (served ++ [true]) l (ds ++ [d])
      (l'.modify k fun _ => withCopies text (deliveriesTo k ds ++ [d]) c) where
  length_eq := by
    rw [List.length_append, List.length_append, h.length_eq]
    rfl
  served_iff := h.served_iff_concat (iff_of_true rfl hyes)
  links := by
    rw [List.map_append, h.links, h.zip_concat, List.filter_append, List.map_append, hd]
    rfl
  get? k' := by
    rw [Links.get?_modify, deliveriesTo_concat, h.get?]
    -- The delivery is of the connection at `k`; every other one has the deliveries it had.
    by_cases hslot : k'.slot = k.slot
    · have hto : deliveriesTo k' ds = deliveriesTo k ds := by rw [deliveriesTo, hslot, deliveriesTo]
      have hcongr : l.get? k' = some c := (Links.get?_congr hslot l).trans hc
      rw [if_pos hslot, if_pos (by rw [hd, hslot]), hcongr, hto]
      rfl
    · rw [if_neg hslot, if_neg (by rw [hd]; exact Ne.symm hslot)]
  tickets k' c' hc' := by
    rw [deliveriesTo_concat]
    by_cases hslot : k.slot = k'.slot
    · have hto : deliveriesTo k' ds = deliveriesTo k ds := by
        rw [deliveriesTo, ← hslot, deliveriesTo]
      have hsame : c' = c := Option.some.inj
        (hc'.symm.trans ((Links.get?_congr hslot.symm l).trans hc))
      rw [if_pos (by rw [hd]; exact hslot), List.map_append, h.tickets k' c' hc',
        List.length_append, List.length_singleton, List.range'_concat, hto, hsame, hd, Nat.one_mul]
      rfl
    · rw [if_neg (by rw [hd]; exact hslot)]
      exact h.tickets k' c' hc'
  nextInstance := h.nextInstance

end Delivers

/-- **What a broadcast delivers.** By induction on the targets, the last one apart: what those
before it did to its connection is all that decides whether it is served. -/
theorem delivers_broadcast (text : String) (targets : List Link) (l : Links) :
    ∃ served, Delivers text targets served l (broadcast text targets l).1
      (broadcast text targets l).2 := by
  -- From the right: what a target gets depends on the copies that were sent before it.
  induction targets using List.reverseRecOn with
  | nil =>
    refine ⟨[], rfl, nofun, rfl, fun k => ?_, fun _ _ _ => rfl, rfl⟩
    show l.get? k = (l.get? k).map (withCopies text [])
    rw [withCopies_nil, Option.map_id]
    rfl
  | append_singleton targets k ih =>
    obtain ⟨served, h⟩ := ih
    rw [broadcast_concat]
    generalize (broadcast text targets l).1 = ds at h ⊢
    generalize (broadcast text targets l).2 = l' at h ⊢
    have hget := h.get? k
    cases hc : l.get? k with
    | none =>
      rw [hc] at hget
      rw [Links.write_of_none hget, Option.toList_none, List.append_nil]
      exact ⟨_, h.skip (by simp [Links.isWritable, hc])⟩
    | some c =>
      rw [hc] at hget
      -- A place is left just if there was room behind the copies the same connection got already.
      have hroom : 0 < (withCopies text (deliveriesTo k ds) c).free ↔
          l.isWritable k = true ∧ l.hasRoomBehind k (copies k (targets.zip served)) = true := by
        rw [← h.length_deliveriesTo k, Connection.free_pos_iff]
        simp [Links.isWritable, Links.hasRoomBehind, hc, Connection.isWritable,
          Connection.hasRoom, withCopies]
      by_cases hyes : l.isWritable k = true ∧
          l.hasRoomBehind k (copies k (targets.zip served)) = true
      · have hserve := h.serve hc hyes rfl
        rw [withCopies_concat] at hserve
        rw [Links.write_of_free_pos hget (hroom.mpr hyes)]
        exact ⟨_, hserve⟩
      · have hfull := Nat.eq_zero_of_not_pos (mt hroom.mp hyes)
        rw [Links.write_of_free_eq_zero hget hfull, Option.toList_none, List.append_nil]
        exact ⟨_, h.skip hyes⟩

/-- Sending takes no instance id, so what a reply is promoted to does not depend on whether it was
sent. -/
theorem promote_congr (r : Reply) (kind : ResponseKind) {l l' : Links}
    (h : l'.nextInstance = l.nextInstance) : (r.promote kind l').1 = (r.promote kind l).1 := by
  unfold promote Links.freshInstance
  rw [h]

/-- **Sending a reply**, for every reply, every list of targets and all connections. A reply that is
being streamed is refused, and nothing changes. Any other reply has one text, which every sending of
it writes: the targets are served in their order, each one just if it is writable and has room
behind the copies that it got before; the deliveries are those of the targets that were served,
every connection has a copy for each of its deliveries at the end of its queue, and one without
deliveries is as it was. The reply can then be sent again, or promoted as if it had not been
sent. -/
theorem sendTo_delivers (r : Reply) :
    (r.response.isStreaming = true → ∀ targets l, r.sendTo targets l =
      (.error (.unsupported "streaming response is written by its StreamWriter"), l)) ∧
    (r.response.isStreaming = false → ∃ text, r.response.encode = .ok text ∧
      ∀ targets l, ∃ served ds l', r.sendTo targets l = (.ok ds, l') ∧
        Delivers text targets served l ds l' ∧
        (∀ k, (∀ d ∈ ds, d.link.slot ≠ k.slot) → l'.get? k = l.get? k) ∧
        ∀ kind, (r.promote kind l').1 = (r.promote kind l).1) := by
  constructor
  · intro hstreaming targets l
    rw [sendTo, Response.encode, if_pos hstreaming]
  · intro hmode
    have hencode : r.response.encode = .ok r.response.print := by
      rw [Response.encode, if_neg (by rw [hmode]; exact Bool.false_ne_true)]
    -- The text is printed once and is the same for every target.
    refine ⟨r.response.print, hencode, fun targets l => ?_⟩
    obtain ⟨served, hdelivers⟩ := delivers_broadcast r.response.print targets l
    refine ⟨served, _, _, ?_, hdelivers, fun k => hdelivers.get?_of_unserved,
      fun kind => promote_congr r kind hdelivers.nextInstance⟩
    rw [sendTo, hencode]

/-- A reply for two connections with room for two frames each, one of which is closed: the open one
is served twice, until its queue is full. The same reply is refused while it is being streamed. -/
theorem sendTo_delivers_repeated :
    let opened := (Links.empty.open 1 (.v4 [127, 0, 0, 1] 80) 2).2
    let l := (opened.open 2 (.v4 [127, 0, 0, 1] 81) 2).2.close ⟨1, 2⟩
    let targets : List Link := [⟨0, 1⟩, ⟨1, 2⟩, ⟨0, 1⟩, ⟨0, 1⟩]
    let r : Reply := ⟨.failure 1 3 none "late", ⟨0, 1⟩⟩
    let streamed : Reply := ⟨{ r.response with body := .streaming }, ⟨0, 1⟩⟩
    streamed.response.isStreaming = true ∧
      streamed.sendTo targets l =
        (.error (.unsupported "streaming response is written by its StreamWriter"), l) ∧
      r.response.isStreaming = false ∧
      ∃ text served l', r.sendTo targets l = (.ok [⟨⟨0, 1⟩, 0⟩, ⟨⟨0, 1⟩, 1⟩], l') ∧
        Delivers text targets served l [⟨⟨0, 1⟩, 0⟩, ⟨⟨0, 1⟩, 1⟩] l' ∧
        l'.get? ⟨1, 2⟩ = l.get? ⟨1, 2⟩ := by
  intro opened l targets r streamed
  refine ⟨rfl, (sendTo_delivers streamed).1 rfl targets l, rfl, ?_⟩
  obtain ⟨text, -, hsends⟩ := (sendTo_delivers r).2 rfl
  obtain ⟨served, ds, l', hsend, hdelivers, hunserved, -⟩ := hsends targets l
  have hds : ds = [⟨⟨0, 1⟩, 0⟩, ⟨⟨0, 1⟩, 1⟩] := by
    have hfirst : (r.sendTo targets l).1 = .ok [⟨⟨0, 1⟩, 0⟩, ⟨⟨0, 1⟩, 1⟩] := rfl
    rw [hsend] at hfirst
    exact Except.ok.inj hfirst
  subst hds
  exact ⟨text, served, l', hsend, hdelivers, hunserved ⟨1, 2⟩ (by decide)⟩

end Reply

end WsGateway
