import Mathlib.Data.List.Nodup
import WsGateway.Demux
import WsGateway.Proofs.Metrics.Totals

/-!
# The ledger

What a gateway counts is counted twice: in a few plain totals, and in families of counters by
label. The ledger of a board (`Board.ledger`) is all of this together with the upgrades that are
awaited, and nothing else of the board. Whatever happens to it is one of a few entries (`Entry`,
`Ledger.post`).

The ledger balances (`Ledger.Balanced`) if the totals agree with the sums over the families. Every
entry keeps it so (`Ledger.Sound.post`). Some entries leave no trace in a family: that a request was
a preflight is known to no counter, so the balance speaks of how many there were.
-/

namespace WsGateway

/-! ## What is counted -/

/-- The metrics without those that are no counts of what has happened: how many sessions there are,
and whether new ones are refused. -/
def Metrics.tallies (m : Metrics) : Metrics :=
  { m with wsSessionsActive := .empty, draining := false }

/-- The totals, the families of counters, and the upgrades that are awaited. -/
structure Ledger where
  counters : Counters
  metrics : Metrics
  awaited : List Upgrade
  nextUpgrade : Nat

def Board.ledger (b : Board) : Ledger :=
  ⟨b.counters, b.metrics.tallies, b.awaited, b.nextUpgrade⟩

/-- Where a handler can fail. -/
inductive Side where
  | http
  | ws

def Side.label : Side → String
  | .http => "http"
  | .ws => "ws"

/-- How an upgrade can be turned away. -/
inductive Dismissal where
  | draining
  | rejected

def Dismissal.label : Dismissal → String
  | .draining => "draining"
  | .rejected => "rejected"

/-- A dismissal is not counted among the upgrades that were promised or came to an end. -/
theorem Dismissal.label_ne (r : Dismissal) {outcome : String}
    (h : outcome ∈ ["switching", "upgraded", "failed", "timeout"]) : outcome ≠ r.label := by
  rintro rfl
  cases r <;> simp [Dismissal.label] at h

/-- What can become of an awaited upgrade. -/
inductive Ending where
  | upgraded
  | failed
  | timeout

def Ending.label : Ending → String
  | .upgraded => "upgraded"
  | .failed => "failed"
  | .timeout => "timeout"

/-- One entry of a ledger. -/
inductive Entry where
  /-- A request is answered as a preflight. -/
  | preflight
  /-- A request is counted under a route. -/
  | request (route : String)
  /-- A handler fails. -/
  | failure (side : Side)
  /-- A text is no request. -/
  | malformed
  /-- A frame is refused. -/
  | refused (f : Frame)
  /-- A request over a web socket is dispatched, which takes some nanoseconds. -/
  | dispatch (op : String) (elapsed : Nat)
  /-- There is no such operation. -/
  | unknownOp
  /-- An upgrade is turned away. -/
  | declined (r : Dismissal)
  /-- An upgrade is promised. -/
  | promised (peer : Net.Address)
  /-- An awaited upgrade comes to its end. -/
  | concluded (number : Nat) (e : Ending)

namespace Entry

/-- How many preflights the entry stands for. -/
def preflights : Entry → Nat
  | .preflight => 1
  | _ => 0

/-- How many requests for unknown operations the entry stands for. -/
def unknowns : Entry → Nat
  | .unknownOp => 1
  | _ => 0

end Entry

namespace Ledger

def measure (L : Ledger) (f : Metrics → Metrics) : Ledger := { L with metrics := f L.metrics }

def countHandshake (L : Ledger) (outcome : String) : Ledger :=
  L.measure fun m => { m with handshakes := m.handshakes.inc [("outcome", outcome)] }

/-- An entry is made. -/
def post (L : Ledger) : Entry → Ledger
  | .preflight => { L with counters := L.counters.httpRequest }
  | .request route =>
    { L with counters := L.counters.httpRequest }.measure fun m =>
      { m with httpRequests := m.httpRequests.inc [("route", route)] }
  | .failure side =>
    { L with counters := L.counters.error }.measure fun m =>
      { m with handlerErrors := m.handlerErrors.inc [("side", side.label)] }
  | .malformed =>
    { L with counters := L.counters.error }.measure fun m =>
      { m with decodeErrors := m.decodeErrors.inc [] }
  | .refused f =>
    { L with counters := L.counters.error }.measure fun m =>
      { m with framesRejected := m.framesRejected.inc [("kind", f.kind)] }
  | .dispatch op elapsed =>
    { L with counters := L.counters.wsRequest }.measure fun m =>
      { m with
        wsRequests := m.wsRequests.inc [("op", op)]
        dispatchDuration := m.dispatchDuration.observe [("op", op)] elapsed }
  | .unknownOp => L.measure fun m => { m with unknownOps := m.unknownOps.inc [] }
  | .declined r => L.countHandshake r.label
  | .promised peer =>
    { L.countHandshake "switching" with
      awaited := L.awaited ++ [⟨L.nextUpgrade, peer, ⟨.handshaking⟩⟩]
      nextUpgrade := L.nextUpgrade + 1 }
  | .concluded number e =>
    { L.countHandshake e.label with awaited := L.awaited.filter (·.number != number) }

/-! ## The balance -/

def handshakes (L : Ledger) (outcome : String) : UInt64 :=
  L.metrics.handshakes.count [("outcome", outcome)]

/-- **The books balance**, after so many preflights and requests for unknown operations. A sum is
one over all series of a family; which those can be is said by the fields about labels. -/
structure Balanced (g : Gateway) (preflights unknowns : Nat) (L : Ledger) : Prop where
  wsRequests : L.counters.wsRequests = L.metrics.wsRequests.total
  timed : L.metrics.wsRequests.total = L.metrics.dispatchDuration.total
  errors : L.counters.errors =
    L.metrics.handlerErrors.count [("side", "http")]
      + L.metrics.handlerErrors.count [("side", "ws")]
      + L.metrics.decodeErrors.count [] + L.metrics.framesRejected.total
  httpRequests : L.counters.httpRequests =
    L.metrics.httpRequests.total + UInt64.ofNat preflights
  handshakes : L.handshakes "switching" =
    L.handshakes "upgraded" + L.handshakes "failed" + L.handshakes "timeout"
      + UInt64.ofNat L.awaited.length
  unknownOps : L.metrics.unknownOps.count [] = UInt64.ofNat unknowns
  /-- A route is a registered path segment, or the hyphen for none. -/
  routes : LabelledBy "route" (fun route => route = "-" ∨ (g.routes.lookup route).isSome)
    L.metrics.httpRequests
  ops : LabelledBy "op" (fun _ => True) L.metrics.wsRequests
  timedOps : LabelledBy "op" (fun _ => True) L.metrics.dispatchDuration
  kinds : LabelledBy "kind" (fun kind => ∃ f : Frame, f.kind = kind) L.metrics.framesRejected

/-- The upgrades that are awaited have different numbers, older than the next one, and all of them
wait for a stream. -/
structure Orderly (L : Ledger) : Prop where
  distinct : (L.awaited.map Upgrade.number).Nodup
  older : ∀ u ∈ L.awaited, u.number < L.nextUpgrade
  waiting : ∀ u ∈ L.awaited, u.handshake = ⟨.handshaking⟩

/-- The books balance, and the upgrades are in order. -/
structure Sound (g : Gateway) (preflights unknowns : Nat) (L : Ledger) : Prop extends
  Balanced g preflights unknowns L, Orderly L

/-- The ledger of a gateway that starts has nothing to account for. -/
theorem sound_start (g : Gateway) : Sound g 0 0 Board.start.ledger where
  wsRequests := rfl
  timed := rfl
  errors := rfl
  httpRequests := rfl
  handshakes := rfl
  unknownOps := rfl
  routes := .empty
  ops := .empty
  timedOps := .empty
  kinds := .empty
  distinct := List.nodup_nil
  older := by simp [Board.ledger, Board.start]
  waiting := by simp [Board.ledger, Board.start]

/-- What an entry must agree with: its route is one that can be, and what comes to its end was
awaited. -/
def Fits (g : Gateway) (L : Ledger) : Entry → Prop
  | .request route => route = "-" ∨ (g.routes.lookup route).isSome
  | .concluded number _ => number ∈ L.awaited.map Upgrade.number
  | _ => True

variable {g : Gateway} {p u : Nat} {L : Ledger}

/-! ### The upgrades that are awaited -/

/-- A handshake that is counted adds 1 to its own outcome and nothing to the others. -/
theorem handshakes_countHandshake (L : Ledger) (outcome outcome' : String) :
    (L.countHandshake outcome).handshakes outcome' =
      L.handshakes outcome' + if outcome' = outcome then 1 else 0 := by
  show (L.metrics.handshakes.inc [("outcome", outcome)]).count [("outcome", outcome')] = _
  rw [CounterFamily.count_inc]
  simp [handshakes]

/-- One upgrade less is awaited when one of them has come to its end. -/
theorem Orderly.length_filter (h : L.Orderly) {number : Nat}
    (hmem : number ∈ L.awaited.map Upgrade.number) :
    L.awaited.length = (L.awaited.filter (·.number != number)).length + 1 := by
  have hone : L.awaited.countP (·.number == number) = 1 := by
    have hcount := List.count_eq_one_of_mem h.distinct hmem
    rwa [List.count, List.countP_map] at hcount
  have hothers : L.awaited.countP (fun u => decide ¬(u.number == number) = true) =
      (L.awaited.filter (·.number != number)).length := by
    rw [← List.countP_eq_length_filter]
    apply List.countP_congr
    intro u _
    simp
  rw [List.length_eq_countP_add_countP (·.number == number), hone, hothers, Nat.add_comm]

/-- A promised upgrade has a number that no other awaited one has. -/
theorem Orderly.promise (h : L.Orderly) (peer : Net.Address) :
    (L.post (.promised peer)).Orderly where
  distinct := by
    show ((L.awaited ++ [_]).map Upgrade.number).Nodup
    rw [List.map_append, List.nodup_append]
    refine ⟨h.distinct, by simp, ?_⟩
    intro n hn n' hn'
    obtain ⟨u, hu, rfl⟩ := List.mem_map.mp hn
    -- Numbers are handed out in ascending order, so the new one is above those that are awaited.
    have hnew : n' = L.nextUpgrade := by simpa using hn'
    exact hnew ▸ Nat.ne_of_lt (h.older u hu)
  older := by
    intro u hu
    show u.number < L.nextUpgrade + 1
    rcases List.mem_append.mp hu with hold | hnew
    · exact Nat.lt_succ_of_lt (h.older u hold)
    · rw [List.mem_singleton.mp hnew]
      exact Nat.lt_succ_self _
  waiting := by
    intro u hu
    rcases List.mem_append.mp hu with hold | hnew
    · exact h.waiting u hold
    · rw [List.mem_singleton.mp hnew]

/-- An upgrade that is concluded leaves the others as they were. -/
theorem Orderly.conclude (h : L.Orderly) (number : Nat) (e : Ending) :
    (L.post (.concluded number e)).Orderly where
  distinct := h.distinct.sublist (List.filter_sublist.map _)
  older u hu := h.older u (List.mem_filter.mp hu).1
  waiting u hu := h.waiting u (List.mem_filter.mp hu).1

/-! ### Every entry keeps the balance

An entry touches a total and a family at once, or the number of a family and what it is compared
with. The equations that speak of neither are those of the ledger before, so that each proof names
just the ones that have changed. -/

theorem ofNat_succ (n : Nat) : UInt64.ofNat (n + 1) = UInt64.ofNat n + 1 := UInt64.ofNat_add n 1

/-- A preflight is an exchange without a route. -/
theorem Sound.preflight (h : Sound g p u L) : Sound g (p + 1) u (L.post .preflight) :=
  { h with
    httpRequests := by
      show L.counters.httpRequests + 1 = _
      rw [h.httpRequests, ofNat_succ, UInt64.add_assoc]
      rfl }

/-- A request that is routed is an exchange and a request of its route. -/
theorem Sound.request (h : Sound g p u L) {route : String}
    (hroute : route = "-" ∨ (g.routes.lookup route).isSome) :
    Sound g p u (L.post (.request route)) :=
  { h with
    httpRequests := by
      show L.counters.httpRequests + 1 = (L.metrics.httpRequests.inc _).total + _
      rw [h.httpRequests, CounterFamily.total_inc]
      ac_rfl
    routes := h.routes.insert hroute _ }

/-- A failure is counted on its own side. -/
theorem Sound.failure (h : Sound g p u L) (side : Side) :
    Sound g p u (L.post (.failure side)) :=
  { h with
    errors := by
      show L.counters.errors + 1 =
        (L.metrics.handlerErrors.inc [("side", side.label)]).count _
          + (L.metrics.handlerErrors.inc [("side", side.label)]).count _ + _ + _
      rw [h.errors, CounterFamily.count_inc, CounterFamily.count_inc]
      -- just one of the two counters has the label of the side
      cases side <;> simp [Side.label] <;> ac_rfl }

/-- A frame that does not read as a request is one malformed frame more. -/
theorem Sound.malformed (h : Sound g p u L) : Sound g p u (L.post .malformed) :=
  { h with
    errors := by
      show L.counters.errors + 1 = _ + (L.metrics.decodeErrors.inc []).count [] + _
      rw [h.errors, CounterFamily.count_inc, if_pos rfl]
      ac_rfl }

/-- A frame of a kind that is not supported is one refusal more. -/
theorem Sound.refused (h : Sound g p u L) (f : Frame) : Sound g p u (L.post (.refused f)) :=
  { h with
    errors := by
      show L.counters.errors + 1 = _ + (L.metrics.framesRejected.inc _).total
      rw [h.errors, CounterFamily.total_inc]
      ac_rfl
    kinds := h.kinds.insert ⟨f, rfl⟩ _ }

/-- A dispatched request is one request of its operation, with the time that it took. -/
theorem Sound.dispatch (h : Sound g p u L) (op : String) (elapsed : Nat) :
    Sound g p u (L.post (.dispatch op elapsed)) :=
  { h with
    wsRequests := by
      show L.counters.wsRequests + 1 = (L.metrics.wsRequests.inc _).total
      rw [h.wsRequests, CounterFamily.total_inc]
    timed := by
      show (L.metrics.wsRequests.inc _).total = (L.metrics.dispatchDuration.observe _ _).total
      rw [CounterFamily.total_inc, h.timed, HistogramFamily.total_observe]
    ops := h.ops.insert trivial _
    timedOps := h.timedOps.insert trivial _ }

/-- A request for an operation that is not registered is one unknown more. -/
theorem Sound.unknownOp (h : Sound g p u L) : Sound g p (u + 1) (L.post .unknownOp) :=
  { h with
    unknownOps := by
      show (L.metrics.unknownOps.inc []).count [] = _
      rw [CounterFamily.count_inc, if_pos rfl, h.unknownOps, ofNat_succ] }

/-- A refused handshake is counted once, under its outcome. -/
theorem Sound.declined (h : Sound g p u L) (r : Dismissal) : Sound g p u (L.post (.declined r)) :=
  { h with
    handshakes := by
      have hsame : ∀ outcome ∈ ["switching", "upgraded", "failed", "timeout"],
          (L.countHandshake r.label).handshakes outcome = L.handshakes outcome := by
        intro outcome hmem
        rw [handshakes_countHandshake, if_neg (r.label_ne hmem), UInt64.add_zero]
      show (L.countHandshake r.label).handshakes _ = (L.countHandshake r.label).handshakes _
        + (L.countHandshake r.label).handshakes _ + (L.countHandshake r.label).handshakes _ + _
      rw [hsame "switching" (by simp), hsame "upgraded" (by simp), hsame "failed" (by simp),
        hsame "timeout" (by simp)]
      exact h.handshakes }

/-- A promised upgrade is awaited until it is concluded. -/
theorem Sound.promised (h : Sound g p u L) (peer : Net.Address) :
    Sound g p u (L.post (.promised peer)) := by
  refine ⟨{ h with handshakes := ?_ }, h.toOrderly.promise peer⟩
  show (L.countHandshake "switching").handshakes _ = (L.countHandshake "switching").handshakes _
    + (L.countHandshake "switching").handshakes _ + (L.countHandshake "switching").handshakes _
    + UInt64.ofNat (L.awaited ++ [_]).length
  simp only [handshakes_countHandshake, String.reduceEq, if_true, if_false, UInt64.add_zero]
  rw [h.handshakes, List.length_append, List.length_singleton, ofNat_succ, UInt64.add_assoc]

/-- An upgrade that was awaited is concluded under one outcome and is awaited no more. -/
theorem Sound.concluded (h : Sound g p u L) {number : Nat}
    (hmem : number ∈ L.awaited.map Upgrade.number) (e : Ending) :
    Sound g p u (L.post (.concluded number e)) := by
  refine ⟨{ h with handshakes := ?_ }, h.toOrderly.conclude number e⟩
  show (L.countHandshake e.label).handshakes _ = (L.countHandshake e.label).handshakes _
    + (L.countHandshake e.label).handshakes _ + (L.countHandshake e.label).handshakes _
    + UInt64.ofNat (L.awaited.filter (·.number != number)).length
  have hswitching : "switching" ≠ e.label := by cases e <;> simp [Ending.label]
  simp only [handshakes_countHandshake, if_neg hswitching, UInt64.add_zero]
  rw [h.handshakes, h.toOrderly.length_filter hmem, ofNat_succ]
  -- the one that is awaited no longer is counted under its ending
  cases e <;> simp only [Ending.label, String.reduceEq, if_true, if_false, UInt64.add_zero] <;>
    ac_rfl

/-- **Every entry keeps the books.** -/
theorem Sound.post (h : Sound g p u L) {e : Entry} (he : L.Fits g e) :
    Sound g (p + e.preflights) (u + e.unknowns) (L.post e) := by
  cases e with
  | preflight => exact h.preflight
  | request route => exact h.request he
  | failure side => exact h.failure side
  | malformed => exact h.malformed
  | refused f => exact h.refused f
  | dispatch op elapsed => exact h.dispatch op elapsed
  | unknownOp => exact h.unknownOp
  | declined r => exact h.declined r
  | promised peer => exact h.promised peer
  | concluded number ending => exact h.concluded he ending

end Ledger

end WsGateway
