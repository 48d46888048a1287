import WsGateway.Operation.Dispatch
import WsGateway.Proofs.Subscriptions.Consistency

/-!
# The ways a dispatch can go

A dispatch ends in one of four ways, each of which has an equation here: the operation is unknown
(`dispatch_unknown`), a subscription with the id is there already (`dispatch_taken`), the handler
runs behind a new subscription (`dispatch_subscribe`), or it runs for another kind of request
(`dispatch_other`). What becomes of the subscriptions is then said once and for all, whichever way
it went (`get?_dispatch`); later proofs cite that and do not open the steps of a dispatch again.
-/

namespace WsGateway

namespace Switchboard

/-! ## What a handler leaves behind -/

/-- How the handler of a request ended, on the links that it found. -/
def handlerResult (handler : OpHandler) (k : Link) (r : Request) (l : Links) :
    Except Failure Unit :=
  (handler ⟨r, k⟩ l).1

def outcomeOf : Except Failure Unit → DispatchOutcome
  | .ok _ => .handled
  | .error f => .failed f.message

/-- The subscriptions do not survive the dispatch: they were cancelled, or their handler failed. -/
def Withdraws (r : Request) (result : Except Failure Unit) : Prop :=
  r.kind = .unsubscribe ∨ (r.kind = .subscribe ∧ ∃ f, result = .error f)

@[simp] theorem refuse_subscriptions (s : Switchboard) (k : Link) (r : Request) (m : String) :
    (s.refuse k r m).subscriptions = s.subscriptions := rfl

@[simp] theorem invoke_subscriptions (handler : OpHandler) (k : Link) (r : Request)
    (s : Switchboard) : (s.invoke handler k r).2.subscriptions = s.subscriptions := rfl

/-- The outcome of a dispatch is that of its handler. -/
theorem settle_fst (k : Link) (r : Request) (result : Except Failure Unit) (s : Switchboard) :
    (s.settle k r result).1 = outcomeOf result := by
  cases result <;> rfl

/-- A dispatch that ran a handler takes the subscription out if it was cancelled or if the handler
of a new one failed; otherwise it leaves the subscriptions as they are. -/
theorem settle_subscriptions (k : Link) (r : Request) (result : Except Failure Unit)
    (s : Switchboard) :
    (Withdraws r result →
      (s.settle k r result).2.subscriptions = (s.subscriptions.unsubscribe k.id r.id).2) ∧
    (¬ Withdraws r result → (s.settle k r result).2.subscriptions = s.subscriptions) := by
  cases result with
  | ok a =>
    have hiff : Withdraws r (.ok a) ↔ r.kind = .unsubscribe := by simp [Withdraws]
    rw [hiff]
    constructor <;> intro h <;> simp [settle, h]
  | error f =>
    have hiff : Withdraws r (.error f) ↔ r.kind = .unsubscribe ∨ r.kind = .subscribe := by
      simp [Withdraws]
    rw [hiff]
    constructor <;> intro h <;> simp [settle, h]

/-! ## The four ways -/

variable {ops : Operations} {k : Link} {r : Request} {s : Switchboard} {handler : OpHandler}

/-- A request for an operation that is not registered is refused. -/
theorem dispatch_unknown (h : ops.lookup r.op = none) :
    s.dispatch ops k r = (.unknownOp, s.refuse k r ("no such operation: " ++ r.op)) := by
  simp [dispatch, prepare, h]

/-- A SUBSCRIBE with an id in use is refused before its handler runs. -/
theorem dispatch_taken (h : ops.lookup r.op = some handler) (hkind : r.kind = .subscribe)
    (htaken : (s.subscriptions.subs.get? (k.id, r.id)).isSome) :
    s.dispatch ops k r = (.rejected (Subscriptions.duplicateError r.id).message,
      s.refuse k r (Subscriptions.duplicateError r.id).message) := by
  simp [dispatch, prepare, h, hkind, Subscriptions.subscribe_of_taken r.op htaken]

/-- A SUBSCRIBE is recorded first; then its handler runs. -/
theorem dispatch_subscribe (h : ops.lookup r.op = some handler) (hkind : r.kind = .subscribe)
    {t : Subscriptions} (ht : s.subscriptions.subscribe k r.id r.op = .ok t) :
    s.dispatch ops k r =
      ((⟨s.links, t⟩ : Switchboard).invoke handler k r).2.settle k r
        (handlerResult handler k r s.links) := by
  simp only [dispatch, prepare, h, hkind, ht, if_true]
  rfl

/-- Every other request runs its handler first. -/
theorem dispatch_other (h : ops.lookup r.op = some handler) (hkind : r.kind ≠ .subscribe) :
    s.dispatch ops k r =
      (s.invoke handler k r).2.settle k r (handlerResult handler k r s.links) := by
  simp only [dispatch, prepare, h, hkind, if_false]
  rfl

/-- The operation is reported as unknown exactly if it has no handler. -/
theorem dispatch_unknownOp_iff (ops : Operations) (k : Link) (r : Request) (s : Switchboard) :
    (s.dispatch ops k r).1 = .unknownOp ↔ ops.lookup r.op = none := by
  -- No handler can return this outcome; it is given only where there is none.
  have hran : ∀ result, outcomeOf result ≠ .unknownOp := by
    intro result
    cases result <;> simp [outcomeOf]
  cases hop : ops.lookup r.op with
  | none =>
    rw [dispatch_unknown hop]
    simp
  | some handler =>
    by_cases hkind : r.kind = .subscribe
    · cases hs : s.subscriptions.subs.get? (k.id, r.id) with
      | some sub =>
        rw [dispatch_taken hop hkind (by simp [hs])]
        simp
      | none =>
        obtain ⟨t, ht, -⟩ := Subscriptions.subscribe_of_free r.op hs
        rw [dispatch_subscribe hop hkind ht, settle_fst]
        simp [hran]
    · rw [dispatch_other hop hkind, settle_fst]
      simp [hran]

/-! ## The subscriptions after a dispatch -/

/-- Dispatching keeps the tables of subscriptions consistent with each other. -/
theorem dispatch_consistent (h : s.subscriptions.Consistent) (ops : Operations) (k : Link)
    (r : Request) : (s.dispatch ops k r).2.subscriptions.Consistent := by
  have hsettle : ∀ (s' : Switchboard) result, s'.subscriptions.Consistent →
      (s'.settle k r result).2.subscriptions.Consistent := by
    intro s' result hs'
    -- the request is withdrawn after the handler, or nothing more happens
    by_cases hw : Withdraws r result
    · rw [(settle_subscriptions k r result s').1 hw]
      exact hs'.unsubscribe k.id r.id
    · rw [(settle_subscriptions k r result s').2 hw]
      exact hs'
  cases hop : ops.lookup r.op with
  | none =>
    rw [dispatch_unknown hop]
    exact h
  | some handler =>
    by_cases hkind : r.kind = .subscribe
    · cases hs : s.subscriptions.subs.get? (k.id, r.id) with
      | some sub =>
        rw [dispatch_taken hop hkind (by simp [hs])]
        exact h
      | none =>
        obtain ⟨t, ht, -⟩ := Subscriptions.subscribe_of_free r.op hs
        rw [dispatch_subscribe hop hkind ht]
        exact hsettle _ _ (h.subscribe ht)
    · rw [dispatch_other hop hkind]
      exact hsettle _ _ h

/-- **What a dispatch does to the subscriptions.** A subscription stands afterwards exactly if the
request was for it and was handled, or if it stood before and was not cancelled by way of a
registered operation. -/
theorem get?_dispatch (ops : Operations) (k : Link) (r : Request) (s : Switchboard)
    (key : SubscriptionKey) (sub : Subscription) :
    (s.dispatch ops k r).2.subscriptions.subs.get? key = some sub ↔
      ((s.dispatch ops k r).1 = .handled ∧ r.kind = .subscribe ∧ key = (k.id, r.id) ∧
          sub = ⟨r.id, r.op, k⟩) ∨
        (s.subscriptions.subs.get? key = some sub ∧
          ¬ (r.kind = .unsubscribe ∧ (ops.lookup r.op).isSome ∧ key = (k.id, r.id))) := by
  cases hop : ops.lookup r.op with
  | none =>
    rw [dispatch_unknown hop]
    simp
  | some handler =>
    by_cases hkind : r.kind = .subscribe
    · have hnot : r.kind ≠ .unsubscribe := by simp [hkind]
      cases hs : s.subscriptions.subs.get? (k.id, r.id) with
      | some old =>
        rw [dispatch_taken hop hkind (by simp [hs])]
        simp [hnot]
      | none =>
        obtain ⟨t, ht, hsubs, -⟩ := Subscriptions.subscribe_of_free r.op hs
        rw [dispatch_subscribe hop hkind ht, settle_fst]
        cases hresult : handlerResult handler k r s.links with
        | ok a =>
          have hw : ¬ Withdraws r (.ok a) := by simp [Withdraws, hnot]
          rw [(settle_subscriptions k r _ _).2 hw, invoke_subscriptions, hsubs,
            FinMap.get?_insert]
          by_cases hkey : key = (k.id, r.id)
          · subst hkey
            simp [outcomeOf, hkind, hs, eq_comm]
          · simp [hkey]
        | error f =>
          -- the subscription was put in and is taken out again
          have hw : Withdraws r (.error f) := Or.inr ⟨hkind, f, rfl⟩
          rw [(settle_subscriptions k r _ _).1 hw, invoke_subscriptions,
            Subscriptions.get?_unsubscribe, hsubs, FinMap.get?_insert]
          by_cases hkey : key = (k.id, r.id)
          · subst hkey
            simp [outcomeOf, hs]
          · simp [hkey, outcomeOf]
    · rw [dispatch_other hop hkind]
      by_cases hcancel : r.kind = .unsubscribe
      · have hw : Withdraws r (handlerResult handler k r s.links) := Or.inl hcancel
        rw [(settle_subscriptions k r _ _).1 hw, invoke_subscriptions,
          Subscriptions.get?_unsubscribe]
        by_cases hkey : key = (k.id, r.id)
        · simp [hkey, hcancel]
        · simp [hkey, hkind]
      · have hw : ¬ Withdraws r (handlerResult handler k r s.links) := by
          simp [Withdraws, hcancel, hkind]
        rw [(settle_subscriptions k r _ _).2 hw, invoke_subscriptions]
        simp [hkind, hcancel]

end Switchboard

end WsGateway
