import WsGateway.Proofs.Links.Responding
import WsGateway.Proofs.Operation.Dispatch

/-!
# The contract of a dispatch

A dispatch owes three things to whoever registered handlers. The handler of exactly the request's
operation runs once and no other does, unless the request is refused beforehand (`Refuses`). One
error answers a refusal or a failure, behind everything that the handler queued; a success adds
nothing. The subscriptions change by the one entry of the request, if at all.

That a handler runs is told by what it would write down: `Operations.observed` has every handler
make a note before it runs, and `dispatch_observed` finds exactly one note in the links, or none.
That a failed handler leaves no trace among the subscriptions rests on `unsubscribe_subscribe`: a
subscription that is put in and taken out again leaves both indexes as they were.
-/

namespace WsGateway

/-! ## A subscription that is taken back -/

section Indexes

variable {κ α : Type} [DecidableEq κ] [DecidableEq α]

/-- An item that is put in and taken out again leaves no trace in a tidy index. -/
theorem indexErase_indexInsert {m : FinMap κ (List α)} (h : TidyIndex m) {k : κ} {a : α}
    (ha : a ∉ indexItems m k) : indexErase (indexInsert m k a) k a = m := by
  have hinsert : indexInsert m k a = m.insert k (a :: indexItems m k) :=
    congrArg (m.insert k) (List.insert_of_not_mem ha)
  have hget : (indexInsert m k a).get? k = some (a :: indexItems m k) := by
    rw [hinsert, FinMap.get?_insert, if_pos rfl]
  rw [indexErase, hget]
  simp only [List.erase_cons_head]
  -- A key that is new is dropped again; an old one gets back the items it had.
  cases hk : m.get? k with
  | none =>
    have hnil : indexItems m k = [] := by rw [indexItems, hk, Option.getD_none]
    rw [hinsert, hnil, List.isEmpty_nil, if_pos rfl]
    exact FinMap.erase_insert hk _
  | some items =>
    have hitems : indexItems m k = items := indexItems_of_get? hk
    have hne : ¬ items.isEmpty = true := by
      rw [List.isEmpty_iff]
      exact h.ne_nil hk
    rw [hinsert, hitems, if_neg hne, FinMap.insert_insert]
    exact FinMap.insert_of_get? hk

end Indexes

namespace Subscriptions

/-- **A subscription is taken back without a trace**: all three maps are as they were. -/
theorem unsubscribe_subscribe {t t' : Subscriptions} (h : Consistent t) {k : Link}
    {rerid : Int64} {op : String} (hfree : t.subs.get? (k.id, rerid) = none)
    (ht : t.subscribe k rerid op = .ok t') : (t'.unsubscribe k.id rerid).2 = t := by
  obtain ⟨t₁, ht₁, hsubs, hbyOp, hbyConn⟩ := subscribe_of_free op hfree
  have htt : t' = t₁ := by
    rw [ht₁] at ht
    exact (Except.ok.inj ht).symm
  subst htt
  have hget : t'.subs.get? (k.id, rerid) = some ⟨rerid, op, k⟩ := by
    rw [hsubs, FinMap.get?_insert, if_pos rfl]
  -- neither index lists the key, because the consistent maps do not have it
  have hop : (k.id, rerid) ∉ indexItems t.byOp op := by
    rw [h.mem_byOp]
    rintro ⟨s, hs, -⟩
    rw [hfree] at hs
    cases hs
  have hconn : rerid ∉ indexItems t.byConn k.id := by
    rw [h.mem_byConn, hfree]
    exact Bool.false_ne_true
  rw [unsubscribe_of_taken hget, removeStored, hsubs, hbyOp, hbyConn]
  show Subscriptions.mk _ _ _ = t
  rw [FinMap.erase_insert hfree, indexErase_indexInsert h.tidy_byOp hop,
    indexErase_indexInsert h.tidy_byConn hconn]

end Subscriptions

/-! ## Which handler runs -/

namespace Operations

/-- The operations with every handler making a note before it runs. The note knows the name that
the handler is registered by. -/
def observed (note : String → OpCall → Links → Links) (ops : Operations) : Operations where
  entries := ops.entries.map fun e => (e.1, fun call l => e.2 call (note e.1 call l))
  nodup := by
    rw [List.map_map]
    exact ops.nodup

/-- An observed table has the same operations, and each handler notes that it is entered before it
runs. -/
theorem lookup_observed (note : String → OpCall → Links → Links) (ops : Operations)
    (name : String) :
    (ops.observed note).lookup name =
      (ops.lookup name).map fun h call l => h call (note name call l) := by
  show findEntry name (ops.entries.map _) = (findEntry name ops.entries).map _
  exact findEntry_map (fun registered h call l => h call (note registered call l)) name ops.entries

end Operations

namespace Switchboard

variable {ops : Operations} {k : Link} {r : Request} {s : Switchboard} {handler : OpHandler}

/-- The request is answered without a handler: its operation is not registered, or it asks for a
subscription that its connection has. -/
def Refuses (ops : Operations) (k : Link) (r : Request) (t : Subscriptions) : Prop :=
  ops.lookup r.op = none ∨ (r.kind = .subscribe ∧ t.contains k.id r.id = true)

instance (ops : Operations) (k : Link) (r : Request) (t : Subscriptions) :
    Decidable (Refuses ops k r t) :=
  inferInstanceAs (Decidable (_ ∨ _))

def errorFor (r : Request) (message : String) : Response := .failure 0 r.id (some r.op) message

/-- The error that a result of a handler calls for: none if it succeeded. -/
def errorsFor (r : Request) : Except Failure Unit → List Response
  | .ok _ => []
  | .error f => [errorFor r f.message]

/-- An error names the request that it answers, by id and by operation, and holds its message. -/
theorem errorFor_correlated (r : Request) (message : String) :
    (errorFor r message).kind = .error ∧ (errorFor r message).rerid = r.id ∧
      (errorFor r message).op = r.op ∧
      (errorFor r message).content? = some (.string message) :=
  ⟨rfl, rfl, rfl, rfl⟩

/-- A refusal sends one error. -/
theorem refuse_links (s : Switchboard) (k : Link) (r : Request) (m : String) :
    (s.refuse k r m).links = s.links.respond k [errorFor r m] := rfl

/-- The subscriptions while the handler of a request runs: a new one is recorded beforehand. -/
def recorded (k : Link) (r : Request) (t : Subscriptions) : Subscriptions :=
  if r.kind = .subscribe then
    match t.subscribe k r.id r.op with
    | .ok t' => t'
    | .error _ => t
  else t

/-- A new subscription is recorded unless the request is refused. -/
theorem subscribe_eq_recorded {t : Subscriptions} (hr : ¬ Refuses ops k r t)
    (hkind : r.kind = .subscribe) :
    t.subs.get? (k.id, r.id) = none ∧ t.subscribe k r.id r.op = .ok (recorded k r t) := by
  have hfree : t.subs.get? (k.id, r.id) = none := by
    rw [← Option.not_isSome_iff_eq_none]
    exact fun htaken => hr (Or.inr ⟨hkind, htaken⟩)
  obtain ⟨t', ht', -⟩ := Subscriptions.subscribe_of_free r.op hfree
  refine ⟨hfree, ?_⟩
  rw [recorded, if_pos hkind, ht']

/-- A request that is not refused runs its handler behind the recorded subscription. -/
theorem dispatch_accepted (h : ops.lookup r.op = some handler)
    (hr : ¬ Refuses ops k r s.subscriptions) :
    s.dispatch ops k r =
      ((⟨s.links, recorded k r s.subscriptions⟩ : Switchboard).invoke handler k r).2.settle k r
        (handlerResult handler k r s.links) := by
  by_cases hkind : r.kind = .subscribe
  · exact dispatch_subscribe h hkind (subscribe_eq_recorded hr hkind).2
  · have hsame : recorded k r s.subscriptions = s.subscriptions := if_neg hkind
    rw [hsame]
    exact dispatch_other h hkind

/-- Observing changes nothing about what is refused. -/
theorem refuses_observed (note : String → OpCall → Links → Links) (t : Subscriptions) :
    Refuses (ops.observed note) k r t ↔ Refuses ops k r t := by
  unfold Refuses
  rw [Operations.lookup_observed, Option.map_eq_none_iff]

/-- **Exactly one handler runs, once, or none does.** With every handler making a note, a dispatch
is the same as without notes if it is refused, and else the same as a dispatch without notes on
links with one note: that of the handler of exactly the request's operation. -/
theorem dispatch_observed (note : String → OpCall → Links → Links) (ops : Operations) (k : Link)
    (r : Request) (s : Switchboard) :
    s.dispatch (ops.observed note) k r =
      if Refuses ops k r s.subscriptions then s.dispatch ops k r
      else (⟨note r.op ⟨r, k⟩ s.links, s.subscriptions⟩ : Switchboard).dispatch ops k r := by
  have hlookup := Operations.lookup_observed note ops r.op
  -- A refused request never enters a handler, so there is nothing to note.
  split
  · next hr =>
    rcases hr with hnone | ⟨hkind, htaken⟩
    · rw [hnone, Option.map_none] at hlookup
      rw [dispatch_unknown hlookup, dispatch_unknown hnone]
    · cases h : ops.lookup r.op with
      | none =>
        rw [h, Option.map_none] at hlookup
        rw [dispatch_unknown hlookup, dispatch_unknown h]
      | some handler =>
        rw [h, Option.map_some] at hlookup
        rw [dispatch_taken hlookup hkind htaken, dispatch_taken h hkind htaken]
  · next hr =>
    cases h : ops.lookup r.op with
    | none => exact absurd (Or.inl h) hr
    | some handler =>
      rw [h, Option.map_some] at hlookup
      rw [dispatch_accepted hlookup (mt (refuses_observed note _).mp hr),
        dispatch_accepted (s := ⟨note r.op ⟨r, k⟩ s.links, s.subscriptions⟩) h hr]
      rfl

/-! ## What is sent -/

/-- What a handler returned is answered by the errors it calls for: by none if it succeeded. -/
theorem settle_links (k : Link) (r : Request) (result : Except Failure Unit) (s : Switchboard) :
    (s.settle k r result).2.links = s.links.respond k (errorsFor r result) := by
  unfold settle
  cases result with
  | ok a =>
    simp only
    split <;> rfl
  | error f =>
    simp only [refuse_links]
    split <;> rfl

/-- A refused request is answered by one error, and nothing else changes. -/
theorem dispatch_refused (hr : Refuses ops k r s.subscriptions) :
    ∃ message, (s.dispatch ops k r).1 ≠ .handled ∧
      (s.dispatch ops k r).2 =
        ⟨s.links.respond k [errorFor r message], s.subscriptions⟩ := by
  cases h : ops.lookup r.op with
  | none =>
    rw [dispatch_unknown h]
    exact ⟨_, DispatchOutcome.noConfusion, rfl⟩
  | some handler =>
    obtain hnone | ⟨hkind, htaken⟩ := hr
    · rw [h] at hnone
      cases hnone
    · rw [dispatch_taken h hkind htaken]
      exact ⟨_, DispatchOutcome.noConfusion, rfl⟩

/-- A handler that ran decides the outcome, and only its failure is answered. -/
theorem links_dispatch_accepted (h : ops.lookup r.op = some handler)
    (hr : ¬ Refuses ops k r s.subscriptions) {result : Except Failure Unit} {l : Links}
    (hresult : handler ⟨r, k⟩ s.links = (result, l)) :
    (s.dispatch ops k r).1 = outcomeOf result ∧
      (s.dispatch ops k r).2.links = l.respond k (errorsFor r result) := by
  have hran : handlerResult handler k r s.links = result := by rw [handlerResult, hresult]
  have hleft : ((⟨s.links, recorded k r s.subscriptions⟩ : Switchboard).invoke
      handler k r).2.links = l := by
    unfold invoke
    rw [hresult]
  rw [dispatch_accepted h hr, hran, settle_fst, settle_links, hleft]
  exact ⟨rfl, rfl⟩

/-- An error and a broken off handler with the same wording have the same effect. -/
theorem dispatch_failure_congr {handler' : OpHandler} {f f' : Failure} {l : Links}
    (hf : handler ⟨r, k⟩ s.links = (.error f, l)) (hf' : handler' ⟨r, k⟩ s.links = (.error f', l))
    (hmessage : f.message = f'.message) (ops : Operations) :
    s.dispatch (FinMap.insert ops r.op handler) k r =
      s.dispatch (FinMap.insert ops r.op handler') k r := by
  have hlookup : ∀ h : OpHandler, Operations.lookup (FinMap.insert ops r.op h) r.op = some h := by
    intro h
    unfold Operations.lookup
    rw [FinMap.get?_insert, if_pos rfl]
  by_cases htaken : r.kind = .subscribe ∧ s.subscriptions.contains k.id r.id = true
  · rw [dispatch_taken (hlookup handler) htaken.1 htaken.2,
      dispatch_taken (hlookup handler') htaken.1 htaken.2]
  · have hr : ∀ h : OpHandler, ¬ Refuses (FinMap.insert ops r.op h) k r s.subscriptions := by
      rintro h (hnone | hboth)
      · rw [hlookup h] at hnone
        cases hnone
      · exact htaken hboth
    rw [dispatch_accepted (hlookup handler) (hr handler),
      dispatch_accepted (hlookup handler') (hr handler')]
    -- Behind the handler only the message of its failure is looked at.
    unfold invoke handlerResult settle
    simp only [hf, hf', hmessage]

/-- One error is one frame, behind those that wait and only where there is room. -/
theorem frames_respond_error (l : Links) (k k' : Link) (r : Request) (message : String) :
    (l.respond k [errorFor r message]).frames k' =
      l.frames k' ++
        if k'.slot = k.slot ∧ l.isWritable k = true ∧ l.hasRoomBehind k 0 = true then
          [(errorFor r message).toFrame l.nextInstance]
        else [] := by
  rw [Links.frames_respond]
  by_cases hslot : k'.slot = k.slot
  · rw [if_pos hslot, Links.free_congr hslot, Response.numbered, Response.numbered]
    rcases Nat.eq_zero_or_pos (l.free k) with hzero | hpos
    · have hnot : ¬ (l.isWritable k = true ∧ l.hasRoomBehind k 0 = true) := by
        rw [← Links.lt_free_iff]
        omega
      rw [if_neg fun hand => hnot hand.2, hzero, List.take_zero]
    · rw [if_pos ⟨hslot, Links.lt_free_iff.mp hpos⟩]
      congr 1
      exact List.take_of_length_le hpos
  · rw [if_neg hslot, if_neg fun hand => hslot hand.1, List.append_nil]

/-! ## What becomes of the subscriptions -/

/-- A dispatch leaves consistent subscriptions as they were, or puts in or takes out the one entry
of its request. -/
theorem subscriptions_dispatch (hc : s.subscriptions.Consistent) (ops : Operations) (k : Link)
    (r : Request) :
    (s.dispatch ops k r).2.subscriptions.Consistent ∧
      if r.kind = .subscribe ∧ (s.dispatch ops k r).1 = .handled then
        s.subscriptions.subscribe k r.id r.op = .ok (s.dispatch ops k r).2.subscriptions
      else if r.kind = .unsubscribe ∧ (ops.lookup r.op).isSome then
        (s.dispatch ops k r).2.subscriptions = (s.subscriptions.unsubscribe k.id r.id).2
      else (s.dispatch ops k r).2.subscriptions = s.subscriptions := by
  refine ⟨dispatch_consistent hc ops k r, ?_⟩
  cases h : ops.lookup r.op with
  | none =>
    rw [dispatch_unknown h]
    simp
  | some handler =>
    by_cases hr : Refuses ops k r s.subscriptions
    · obtain hnone | ⟨hkind, htaken⟩ := hr
      · rw [h] at hnone
        cases hnone
      · rw [dispatch_taken h hkind htaken]
        simp [hkind]
    · rw [dispatch_accepted h hr, settle_fst]
      set result := handlerResult handler k r s.links with hresult
      have hfst : outcomeOf result = .handled ↔ ¬ ∃ f, result = .error f := by
        cases result <;> simp [outcomeOf]
      by_cases hkind : r.kind = .subscribe
      · obtain ⟨hfree, hsub⟩ := subscribe_eq_recorded hr hkind
        have hnot : r.kind ≠ .unsubscribe := by simp [hkind]
        by_cases hfail : ∃ f, result = .error f
        · -- what was recorded before the handler ran is taken back
          have hw : Withdraws r result := Or.inr ⟨hkind, hfail⟩
          rw [if_neg fun hand => hfst.mp hand.2 hfail, if_neg fun hand => hnot hand.1,
            (settle_subscriptions k r _ _).1 hw, invoke_subscriptions]
          exact Subscriptions.unsubscribe_subscribe hc hfree hsub
        · have hw : ¬ Withdraws r result := by
            rintro (hcancel | ⟨-, hf⟩)
            · exact hnot hcancel
            · exact hfail hf
          rw [if_pos ⟨hkind, hfst.mpr hfail⟩, (settle_subscriptions k r _ _).2 hw,
            invoke_subscriptions, hsub]
      · have hsame : recorded k r s.subscriptions = s.subscriptions := if_neg hkind
        rw [if_neg fun hand => hkind hand.1]
        by_cases hcancel : r.kind = .unsubscribe
        · rw [if_pos ⟨hcancel, rfl⟩, (settle_subscriptions k r _ _).1 (Or.inl hcancel),
            invoke_subscriptions, hsame]
        · have hw : ¬ Withdraws r result := by
            rintro (hc' | ⟨hs, -⟩)
            · exact hcancel hc'
            · exact hkind hs
          rw [if_neg fun hand => hcancel hand.1, (settle_subscriptions k r _ _).2 hw,
            invoke_subscriptions, hsame]

/-! ## The contract -/

/-- **What a dispatch owes.** For all operations with any handlers, all subscriptions, connections
and requests: the handler of exactly the request's operation runs once and nobody else does, unless
the request is refused; a refusal and a failure are answered by one error, with the id and the
operation of the request, behind whatever the handler queued, a success by nothing more, and only
the wording of a failure matters; the subscriptions change by the one entry of the request that was
handled or cancelled, or not at all. -/
theorem dispatch_contract (ops : Operations) (k : Link) (r : Request) (s : Switchboard) :
    let t := s.subscriptions
    let after := s.dispatch ops k r
    (∀ note, s.dispatch (ops.observed note) k r =
      if Refuses ops k r t then after
      else (⟨note r.op ⟨r, k⟩ s.links, t⟩ : Switchboard).dispatch ops k r) ∧
    (Refuses ops k r t → ∃ message, after.1 ≠ .handled ∧
      after.2 = ⟨s.links.respond k [errorFor r message], t⟩) ∧
    (∀ handler result l, ops.lookup r.op = some handler → ¬ Refuses ops k r t →
      handler ⟨r, k⟩ s.links = (result, l) →
      after.1 = outcomeOf result ∧ after.2.links = l.respond k (errorsFor r result)) ∧
    ((∀ a, errorsFor r (.ok a) = []) ∧ ∀ f, errorsFor r (.error f) = [errorFor r f.message]) ∧
    (∀ message, (errorFor r message).kind = .error ∧ (errorFor r message).rerid = r.id ∧
      (errorFor r message).op = r.op ∧
      (errorFor r message).content? = some (.string message)) ∧
    (∀ (l : Links) message (k' : Link), (l.respond k [errorFor r message]).frames k' =
      l.frames k' ++
        if k'.slot = k.slot ∧ l.isWritable k = true ∧ l.hasRoomBehind k 0 = true then
          [(errorFor r message).toFrame l.nextInstance]
        else []) ∧
    (∀ (handler handler' : OpHandler) f f' l, handler ⟨r, k⟩ s.links = (.error f, l) →
      handler' ⟨r, k⟩ s.links = (.error f', l) → f.message = f'.message →
      s.dispatch (FinMap.insert ops r.op handler) k r =
        s.dispatch (FinMap.insert ops r.op handler') k r) ∧
    (∀ key sub, after.2.subscriptions.subs.get? key = some sub ↔
      (after.1 = .handled ∧ r.kind = .subscribe ∧ key = (k.id, r.id) ∧ sub = ⟨r.id, r.op, k⟩) ∨
        (t.subs.get? key = some sub ∧
          ¬ (r.kind = .unsubscribe ∧ (ops.lookup r.op).isSome ∧ key = (k.id, r.id)))) ∧
    (t.Consistent →
      after.2.subscriptions.Consistent ∧
      if r.kind = .subscribe ∧ after.1 = .handled then
        t.subscribe k r.id r.op = .ok after.2.subscriptions
      else if r.kind = .unsubscribe ∧ (ops.lookup r.op).isSome then
        after.2.subscriptions = (t.unsubscribe k.id r.id).2
      else after.2.subscriptions = t) := by
  intro t after
  refine ⟨?_, ?_, ?_, ⟨?_, ?_⟩, ?_, ?_, ?_, ?_, ?_⟩
  · exact fun note => dispatch_observed note ops k r s
  · exact dispatch_refused
  · exact fun handler result l h hr hresult => links_dispatch_accepted h hr hresult
  · exact fun a => rfl
  · exact fun f => rfl
  · exact errorFor_correlated r
  · exact fun l message k' => frames_respond_error l k k' r message
  · exact fun handler handler' f f' l hf hf' hm => dispatch_failure_congr hf hf' hm ops
  · exact get?_dispatch ops k r s
  · exact fun hc => subscriptions_dispatch hc ops k r

end Switchboard

end WsGateway
