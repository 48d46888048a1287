import Mathlib.Data.List.Forall2
import WsGateway.Proofs.Links.Room
import WsGateway.Proofs.Subscriptions.Consistency
import WsGateway.Proofs.Text.Decimal

/-!
# What publishing queues

A publish visits the subscribers of an operation one after another and puts one event into the
queue of each one's connection. The events for one connection form a list, of which just the first
ones arrive, as many as it still accepts (`frames_notifyAll`). An event names the subscription that
it is for (`Frame.IsEvent`), and no other (`Frame.IsEvent.rerid_eq`), so that the events for one
subscription can be counted (`countP_events`).
-/

namespace WsGateway

/-! ## Events -/

/-- The frame is the event of a subscription with the correlation id. -/
def Frame.IsEvent (rerid : Int64) (f : Frame) : Prop :=
  ∃ instanceId op body, f = .text (Response.print ⟨instanceId, rerid, .event, op, body⟩)

/-- The text of a response behind its ids. -/
def Response.behindIds (r : Response) : List Char :=
  ("\"t\":" ++ Json.printString r.kind.code ++ ",\"op\":" ++ Json.printString r.op ++ ",\"msg\":"
    ++ (r.content?.getD .null).print ++ "\x7d").toList

/-- The ids of a response stand at its front, each in front of a comma. -/
theorem Response.toList_print (r : Response) : r.print.toList =
    "\x7b\"id\":".toList ++ ((toString r.instanceId.toNat).toList ++ ',' ::
      ("\"rerid\":".toList ++ ((toString r.rerid.toInt).toList ++ ',' :: r.behindIds))) := by
  have hrerid : ",\"rerid\":".toList = ',' :: "\"rerid\":".toList := rfl
  have hkind : ",\"t\":".toList = ',' :: "\"t\":".toList := rfl
  simp only [Response.print_eq, behindIds, String.toList_append, List.append_assoc, hrerid, hkind,
    List.cons_append]

/-- Responses that are written alike have the same correlation id, and the same text behind it. -/
theorem Response.rerid_eq_of_print {r r' : Response} (h : r.print = r'.print) :
    r.rerid = r'.rerid ∧ r.behindIds = r'.behindIds := by
  have hlist := congrArg String.toList h
  rw [toList_print, toList_print, List.append_cancel_left_eq] at hlist
  -- the instance ids end at the first comma, and the correlation ids at the second
  obtain ⟨-, hrest⟩ := Text.append_cons_inj (Text.comma_notMem_natText _)
    (Text.comma_notMem_natText _) hlist
  rw [List.append_cancel_left_eq] at hrest
  obtain ⟨hrerid, hbehind⟩ := Text.append_cons_inj (Text.comma_notMem_intText _)
    (Text.comma_notMem_intText _) hrest
  exact ⟨Int64.toInt_inj.mp (Int.repr_injective (String.toList_inj.mp hrerid)), hbehind⟩

/-- An event belongs to one correlation id only. -/
theorem Frame.IsEvent.rerid_eq {rerid rerid' : Int64} {f : Frame} (h : f.IsEvent rerid)
    (h' : f.IsEvent rerid') : rerid = rerid' := by
  obtain ⟨i, op, body, rfl⟩ := h
  obtain ⟨i', op', body', heq⟩ := h'
  exact (Response.rerid_eq_of_print (Frame.text.inj heq)).1

/-- Every event is one of a subscription in the list. -/
theorem exists_of_mem_events {fs : List Frame} {rerids : List Int64}
    (h : List.Forall₂ (fun f r => f.IsEvent r) fs rerids) {f : Frame} (hf : f ∈ fs) :
    ∃ rerid ∈ rerids, f.IsEvent rerid := by
  obtain ⟨i, hi, rfl⟩ := List.mem_iff_getElem.mp hf
  have hi' : i < rerids.length := h.length_eq ▸ hi
  exact ⟨rerids[i], List.getElem_mem hi', h.get hi hi'⟩

open Classical in
/-- Among events of different correlation ids there is at most one of each. -/
theorem countP_events {fs : List Frame} {rerids : List Int64}
    (h : List.Forall₂ (fun f r => f.IsEvent r) fs rerids) (hnodup : rerids.Nodup) (rerid : Int64) :
    fs.countP (fun f => f.IsEvent rerid) = if rerid ∈ rerids then 1 else 0 := by
  induction h with
  | nil => simp
  | @cons f r fs rerids hf _ ih =>
    rw [List.nodup_cons] at hnodup
    rw [List.countP_cons, ih hnodup.2]
    by_cases hr : rerid = r
    · subst hr
      simp [hf, hnodup.1]
    · have hnot : ¬ f.IsEvent rerid := fun hf' => hr (hf'.rerid_eq hf)
      simp [hr, hnot]

namespace Subscriptions

/-! ## Visiting the subscribers -/

/-- The event of one beat of publishing: an operation and a content for a subscription. -/
def eventFrame (op : String) (v : Json.Value) (instanceId : UInt64) (s : Subscription) : Frame :=
  .text (Response.print ⟨instanceId, s.rerid, .event, some op, .content v⟩)

/-- The events for subscribers that are visited in order, each with its connection; the first one
takes the instance id. -/
def events (op : String) (v : Json.Value) : UInt64 → List Subscription → List (Link × Frame)
  | _, [] => []
  | i, s :: rest => (s.link, eventFrame op v i s) :: events op v (i + 1) rest

/-- The events that are meant for a connection. -/
def eventsFor (k : Link) (es : List (Link × Frame)) : List Frame :=
  (es.filter fun e => e.1.slot = k.slot).map Prod.snd

/-- A notification takes a place of its own connection if there is one, and none of another. -/
theorem free_notify (op : String) (v : Json.Value) (s : Subscription) (l : Links) (k : Link) :
    (notify op v s l).2.free k = if k.slot = s.link.slot then l.free k - 1 else l.free k :=
  Links.free_write _ _ _ _

/-- A notification takes an id, whether it is sent or not. -/
theorem nextInstance_notify (op : String) (v : Json.Value) (s : Subscription) (l : Links) :
    (notify op v s l).2.nextInstance = l.nextInstance + 1 :=
  Links.nextInstance_write _ _ _

/-- Only the subscriber's connection changes. -/
theorem get?_notify (op : String) (v : Json.Value) (s : Subscription) (l : Links) (k : Link) :
    (notify op v s l).2.get? k =
      if k.slot = s.link.slot then
        (l.get? k).map fun c => (c.write (eventFrame op v l.nextInstance s)).2
      else l.get? k :=
  Links.get?_write _ _ _ _

/-- **What a round of events does to a connection**: the events for it are written one after
another, however many others are visited in between. By induction on the subscribers; the instance
ids that were taken are what ties one visit to those before. -/
theorem get?_notifyAll (op : String) (v : Json.Value) (subs : List Subscription) (l : Links)
    (k : Link) :
    (notifyAll op v subs l).2.get? k =
      (l.get? k).map fun c =>
        c.writeAll (eventsFor k (events op v l.nextInstance subs)) := by
  -- Induction on the subscribers, since each notification writes to the queue that the ones before
  -- it left and takes the next id.
  induction subs generalizing l with
  | nil =>
    show l.get? k = (l.get? k).map id
    rw [Option.map_id]
    rfl
  | cons s rest ih =>
    have hcons : (notifyAll op v (s :: rest) l).2 =
        (notifyAll op v rest (notify op v s l).2).2 := rfl
    rw [hcons, ih, get?_notify, nextInstance_notify]
    simp only [events, eventsFor]
    by_cases hslot : k.slot = s.link.slot
    · rw [if_pos hslot, List.filter_cons_of_pos (by simp [hslot]), List.map_cons, Option.map_map]
      rfl
    · rw [if_neg hslot, List.filter_cons_of_neg (by simpa using Ne.symm hslot)]

/-- **What a round of events queues.** The queue of a connection grows by the events for it, as
many as it still accepts, in the order in which the subscribers are visited. -/
theorem frames_notifyAll (op : String) (v : Json.Value) (subs : List Subscription) (l : Links)
    (k : Link) :
    (notifyAll op v subs l).2.frames k =
      l.frames k ++ (eventsFor k (events op v l.nextInstance subs)).take (l.free k) :=
  Links.frames_of_writeAll (get?_notifyAll op v subs l k)

/-- The events for a connection belong to its subscriptions among those visited. -/
theorem forall₂_eventsFor (op : String) (v : Json.Value) (k : Link) (i : UInt64)
    (subs : List Subscription) :
    List.Forall₂ (fun f r => f.IsEvent r) (eventsFor k (events op v i subs))
      ((subs.filter fun s => s.link.slot = k.slot).map Subscription.rerid) := by
  induction subs generalizing i with
  | nil => exact .nil
  | cons s rest ih =>
    simp only [events, eventsFor]
    by_cases hslot : s.link.slot = k.slot
    · rw [List.filter_cons_of_pos (by simpa using hslot),
        List.filter_cons_of_pos (by simpa using hslot)]
      exact .cons ⟨i, some op, .content v, rfl⟩ (ih (i + 1))
    · rw [List.filter_cons_of_neg (by simpa using hslot),
        List.filter_cons_of_neg (by simpa using hslot)]
      exact ih (i + 1)

end Subscriptions

end WsGateway
