import WsGateway.Proofs.Gateway.Activity

/-!
# Who gets an event

A publish is decided by the history and by the room in the queues alone. A connection lists the
ids of its active subscriptions of the operation in some order, without repetition; an id gets
its one event exactly if the content can be encoded, the connection is writable, and its queue has
room for the event behind those for the ids before it (`publish_reaches_active`). What other
connections do with the same id or operation does not matter. A content that cannot be encoded
reaches nobody, room or not (`unencodable_reaches_nobody`).
-/

namespace WsGateway

namespace Gateway

/-! ## The subscribers on one connection -/

/-- The subscribers of an operation whose connection stands at the place of a handle. -/
def subscribersAt (t : Subscriptions) (op : String) (k : Link) : List Subscription :=
  (t.subscribers op).filter fun s => s.link.slot = k.slot

section Tracked

variable {g : Gateway} {place : UInt64 ↪ Nat} {h : History} {t : Subscriptions}

/-- The subscribers on a connection are its active subscriptions. -/
theorem Tracks.mem_subscribersAt (ht : Tracks g place h t) {op : String} {conn : UInt64}
    {s : Subscription} :
    s ∈ subscribersAt t op (linkOf place conn) ↔
      s = ⟨s.rerid, op, linkOf place conn⟩ ∧ Active g h conn s.rerid op := by
  rw [subscribersAt, List.mem_filter, ht.consistent.mem_subscribers]
  constructor
  · rintro ⟨⟨⟨conn', rerid⟩, hget, hop⟩, hslot⟩
    obtain ⟨hs, hactive⟩ := (ht.get?_iff conn' rerid s).mp hget
    rw [hop] at hs hactive
    subst hs
    -- a place belongs to one connection only
    have hconn : conn' = conn := place.injective (by simpa [linkOf] using hslot)
    subst hconn
    exact ⟨rfl, hactive⟩
  · rintro ⟨hs, hactive⟩
    have hop : s.op = op := by rw [hs]
    refine ⟨⟨(conn, s.rerid), (ht.get?_iff conn s.rerid s).mpr ?_, hop⟩, ?_⟩
    · rw [hop]
      exact ⟨hs, hactive⟩
    · rw [hs]
      simp

/-- The subscriptions that the table has for a connection are those the history made active. -/
theorem Tracks.mem_rerids (ht : Tracks g place h t) {op : String} {conn : UInt64}
    {rerid : Int64} :
    rerid ∈ (subscribersAt t op (linkOf place conn)).map Subscription.rerid ↔
      Active g h conn rerid op := by
  rw [List.mem_map]
  constructor
  · rintro ⟨s, hs, rfl⟩
    exact (ht.mem_subscribersAt.mp hs).2
  · intro hactive
    exact ⟨⟨rerid, op, linkOf place conn⟩, ht.mem_subscribersAt.mpr ⟨rfl, hactive⟩, rfl⟩

/-- No correlation id occurs twice among the subscribers on a connection. -/
theorem Tracks.nodup_rerids (ht : Tracks g place h t) (op : String) (conn : UInt64) :
    ((subscribersAt t op (linkOf place conn)).map Subscription.rerid).Nodup := by
  apply List.Nodup.map_on
  · intro s hs s' hs' heq
    rw [(ht.mem_subscribersAt.mp hs).1, (ht.mem_subscribersAt.mp hs').1, heq]
  · exact (ht.consistent.nodup_subscribers op).filter _

end Tracked

/-! ## One publish -/

/-- A content that cannot be encoded is sent to nobody. -/
theorem links_publish_of_error {c : Content} {message : String} (hc : c.toValue = .error message)
    (b : Board) (op : String) : (b.publish op c).2.links = b.links := by
  simp only [Board.publish, Subscriptions.publish, hc]
  rfl

/-- A publication that encodes notifies the operation's subscribers in the order of the index. -/
theorem links_publish_of_ok {c : Content} {v : Json.Value} (hc : c.toValue = .ok v) (b : Board)
    (op : String) :
    (b.publish op c).2.links =
      (Subscriptions.notifyAll op v (b.subscriptions.subscribers op) b.links).2 := by
  simp only [Board.publish, Subscriptions.publish, hc]
  rfl

/-- What a publish puts into the queue of a connection are events for its subscribers there, for
as many of the first ones as it still accepts. -/
theorem frames_publish {c : Content} {v : Json.Value} (hc : c.toValue = .ok v) (b : Board)
    (op : String) (k : Link) :
    ∃ added, (b.publish op c).2.links.frames k = b.links.frames k ++ added ∧
      List.Forall₂ (fun f r => f.IsEvent r) added
        (((subscribersAt b.subscriptions op k).map Subscription.rerid).take (b.links.free k)) := by
  refine ⟨(Subscriptions.eventsFor k (Subscriptions.events op v b.links.nextInstance
    (b.subscriptions.subscribers op))).take (b.links.free k), ?_, ?_⟩
  · rw [links_publish_of_ok hc, Subscriptions.frames_notifyAll]
  · exact List.forall₂_take _ (Subscriptions.forall₂_eventsFor op v k _ _)

open Classical in
/-- **Events reach the active subscriptions.** After any run that began without subscriptions, a
publish adds frames to the queue of a connection, all of them events of its active subscriptions
of the operation. An id gets exactly one if it is active, the content can be encoded, the
connection is writable and its queue has room behind the events for the ids before it; else it gets
none. In particular an id that was ended gets none before it is accepted again. -/
theorem publish_reaches_active (g : Gateway) (place : UInt64 ↪ Nat) (inputs : List Input)
    (start : Board) (op : String) (c : Content) (conn : UInt64) :
    let h := (g.run place inputs (start.setSubscriptions .empty)).1
    let b := (g.run place inputs (start.setSubscriptions .empty)).2
    let k := linkOf place conn
    ∃ rerids : List Int64, rerids.Nodup ∧ (∀ r, r ∈ rerids ↔ Active g h conn r op) ∧
      ∃ added, (b.publish op c).2.links.frames k = b.links.frames k ++ added ∧
        (∀ f ∈ added, ∃ r ∈ rerids, f.IsEvent r) ∧
        (∀ r, added.countP (fun f => f.IsEvent r) =
          if Active g h conn r op ∧ (∃ v, c.toValue = .ok v) ∧ b.links.isWritable k = true ∧
            b.links.hasRoomBehind k (rerids.idxOf r) = true then 1 else 0) ∧
        ∀ r before x after, h = before ++ x :: after → x.Ends g conn r →
          (∀ y ∈ after, ∀ op', ¬ Record.Accepts conn r op' y) →
          added.countP (fun f => f.IsEvent r) = 0 := by
  intro h b k
  have ht : Tracks g place h b.subscriptions := tracks_run g place inputs start
  set rerids := (subscribersAt b.subscriptions op k).map Subscription.rerid with hrerids
  have hmem : ∀ r, r ∈ rerids ↔ Active g h conn r op := fun r => ht.mem_rerids
  have hnodup : rerids.Nodup := ht.nodup_rerids op conn
  -- the last part follows from the count, because an ended subscription is not active
  suffices hadded : ∃ added, (b.publish op c).2.links.frames k = b.links.frames k ++ added ∧
      (∀ f ∈ added, ∃ r ∈ rerids, f.IsEvent r) ∧
      ∀ r, added.countP (fun f => f.IsEvent r) =
        if Active g h conn r op ∧ (∃ v, c.toValue = .ok v) ∧ b.links.isWritable k = true ∧
          b.links.hasRoomBehind k (rerids.idxOf r) = true then 1 else 0 by
    obtain ⟨added, hframes, hevents, hcount⟩ := hadded
    refine ⟨rerids, hnodup, hmem, added, hframes, hevents, hcount, ?_⟩
    intro r before x after hsplit hends hafter
    have hnot : ¬ Active g h conn r op := by
      rw [hsplit]
      exact not_active_of_ended hends op before after hafter
    rw [hcount, if_neg fun hand => hnot hand.1]
  cases hc : c.toValue with
  | error message =>
    refine ⟨[], ?_, by simp, by simp⟩
    rw [links_publish_of_error hc, List.append_nil]
  | ok v =>
    obtain ⟨added, hframes, hevents⟩ := frames_publish hc b op k
    rw [← hrerids] at hevents
    refine ⟨added, hframes, ?_, ?_⟩
    · intro f hf
      obtain ⟨r, hr, hevent⟩ := exists_of_mem_events hevents hf
      exact ⟨r, List.mem_of_mem_take hr, hevent⟩
    · intro r
      rw [countP_events hevents (hnodup.sublist (List.take_sublist _ _))]
      by_cases hr : Active g h conn r op
      · have hplace : r ∈ rerids.take (b.links.free k) ↔
            b.links.isWritable k = true ∧ b.links.hasRoomBehind k (rerids.idxOf r) = true := by
          rw [List.mem_take_iff_idxOf_lt ((hmem r).mpr hr), Links.lt_free_iff]
        simp [hplace, hr]
      · have hnot : r ∉ rerids.take (b.links.free k) := fun hin =>
          hr ((hmem r).mp (List.mem_of_mem_take hin))
        simp [hnot, hr]

/-! ## A content that cannot be encoded -/

/-- A gateway with one operation, which answers nothing. -/
def silent : Gateway :=
  { ofConfig {} with operations := FinMap.empty.insert "beat" fun _ => pure () }

/-- A board with one connection, whose queue is empty. -/
def oneConnected : Board := Board.start.setLinks (Links.empty.open 0 (.v4 [127, 0, 0, 1] 9) 4).2

/-- Connections stand in the order of their ids. -/
def byId : UInt64 ↪ Nat := ⟨UInt64.toNat, fun _ _ => UInt64.toNat_inj.mp⟩

/-- The condition on the content is needed: a subscription is active and its connection has room,
yet a publish that cannot be encoded queues nothing. -/
theorem unencodable_reaches_nobody :
    let text := "\x7b\"id\":7,\"op\":\"beat\",\"type\":\"sub\"\x7d"
    let h := (silent.run byId [.text 0 text 1] (oneConnected.setSubscriptions .empty)).1
    let b := (silent.run byId [.text 0 text 1] (oneConnected.setSubscriptions .empty)).2
    let k := linkOf byId 0
    Active silent h 0 7 "beat" ∧ b.links.isWritable k = true ∧
      b.links.hasRoomBehind k 0 = true ∧
      (b.publish "beat" .badKey).2.links.frames k = b.links.frames k := by
  intro text h b k
  have hparse : Request.parse text = .ok ⟨7, "beat", .subscribe, none⟩ := by decide +kernel
  have htext : h = [(.text 0 text 1, some .handled)] := by
    have hdispatch := (take_request silent byId 0 1 hparse (oneConnected.setSubscriptions .empty)).1
    exact congrArg (fun outcome => [(Input.text 0 text 1, outcome)]) hdispatch
  refine ⟨⟨[], _, [], htext, ⟨text, 1, _, rfl, hparse, rfl, rfl, rfl⟩, by simp⟩, ?_, ?_, ?_⟩
  · decide +kernel
  · decide +kernel
  · have hbad : Content.badKey.toValue = .error Content.badKeyMessage := rfl
    rw [links_publish_of_error hbad]

end Gateway

end WsGateway
