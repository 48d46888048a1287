import WsGateway.Operation.Basic

/-!
# Dispatch of requests

A request goes to the handler of its operation. Three steps follow one another, between which
other tasks may run: a subscription is recorded, the handler runs, and the subscription is
settled. Every miss and every failure is answered with an error on the request's connection.
-/

namespace WsGateway

inductive DispatchOutcome where
  | handled
  | unknownOp
  /-- The request was refused before its handler ran. -/
  | rejected (message : String)
  /-- The handler failed. -/
  | failed (message : String)
  deriving DecidableEq, Repr

/-- The state that dispatching works on. -/
structure Switchboard where
  links : Links
  subscriptions : Subscriptions

namespace Switchboard

def refuse (s : Switchboard) (k : Link) (r : Request) (message : String) : Switchboard :=
  { s with links := sendFailure k r.id (some r.op) message s.links }

/-- First step: the handler that will run, or the outcome if none does. A subscription is
recorded. -/
def prepare (ops : Operations) (k : Link) (r : Request) (s : Switchboard) :
    Except DispatchOutcome OpHandler × Switchboard :=
  match ops.lookup r.op with
  | none => (.error .unknownOp, s.refuse k r ("no such operation: " ++ r.op))
  | some handler =>
    if r.kind = .subscribe then
      match s.subscriptions.subscribe k r.id r.op with
      | .error e => (.error (.rejected e.message), s.refuse k r e.message)
      | .ok t => (.ok handler, { s with subscriptions := t })
    else (.ok handler, s)

/-- Second step: the handler runs. -/
def invoke (handler : OpHandler) (k : Link) (r : Request) (s : Switchboard) :
    Except Failure Unit × Switchboard :=
  let (result, l) := handler ⟨r, k⟩ s.links
  (result, { s with links := l })

/-- Third step: a subscription that was cancelled or whose handler failed is removed, and a
failure is answered. -/
def settle (k : Link) (r : Request) (result : Except Failure Unit) (s : Switchboard) :
    DispatchOutcome × Switchboard :=
  let failed := match result with
    | .ok _ => false
    | .error _ => true
  let s :=
    if r.kind = .unsubscribe ∨ (r.kind = .subscribe ∧ failed = true) then
      { s with subscriptions := (s.subscriptions.unsubscribe k.id r.id).2 }
    else s
  match result with
  | .ok _ => (.handled, s)
  | .error f => (.failed f.message, s.refuse k r f.message)

/-- The three steps without anything between them. -/
def dispatch (ops : Operations) (k : Link) (r : Request) (s : Switchboard) :
    DispatchOutcome × Switchboard :=
  match s.prepare ops k r with
  | (.error outcome, s) => (outcome, s)
  | (.ok handler, s) =>
    let (result, s) := s.invoke handler k r
    s.settle k r result

end Switchboard

end WsGateway
