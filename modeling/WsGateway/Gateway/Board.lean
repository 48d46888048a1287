import WsGateway.Handshake
import WsGateway.Metrics.Exposition
import WsGateway.Operation.Dispatch
import WsGateway.Registry

/-!
# The board

Everything about a running gateway that changes: connections, subscriptions, the registry,
numbers, and the upgrades whose streams have not arrived yet.
-/

namespace WsGateway

/-- An upgrade whose switching response was sent, and whose stream is awaited. -/
structure Upgrade where
  number : Nat
  peer : Net.Address
  handshake : Handshake
  deriving DecidableEq, Repr

/-- The changing state of a gateway. -/
structure Board where
  switchboard : Switchboard
  registry : Registry
  metrics : Metrics
  counters : Counters
  /-- The upgrades that are awaited. -/
  awaited : List Upgrade
  /-- The number of the next upgrade. -/
  nextUpgrade : Nat

namespace Board

def start : Board := ⟨⟨.empty, .empty⟩, .empty, {}, {}, [], 0⟩

def links (b : Board) : Links := b.switchboard.links

def subscriptions (b : Board) : Subscriptions := b.switchboard.subscriptions

def setLinks (b : Board) (l : Links) : Board :=
  { b with switchboard := { b.switchboard with links := l } }

def setSubscriptions (b : Board) (t : Subscriptions) : Board :=
  { b with switchboard := { b.switchboard with subscriptions := t } }

def measure (b : Board) (f : Metrics → Metrics) : Board := { b with metrics := f b.metrics }

def countError (b : Board) : Board := { b with counters := b.counters.error }

def isDraining (b : Board) : Bool := b.metrics.draining

/-- New upgrades are refused from now on, and every live connection is closed. -/
def beginDrain (b : Board) : Board :=
  (b.measure fun m => { m with draining := true }).setLinks (b.registry.closeAll b.links)

/-- Further names and values for the exposition of metrics. -/
def extraMetrics (b : Board) : List (String × UInt64) :=
  b.counters.named ++
    [("metricws_ws_connections", UInt64.ofNat b.registry.size),
      ("metricws_subscriptions", UInt64.ofNat b.subscriptions.size)]

def metricsText (b : Board) : String := b.metrics.render b.extraMetrics

def publish (b : Board) (op : String) (c : Content) : Except Error Nat × Board :=
  let (result, l) := b.subscriptions.publish op c b.links
  (result, b.setLinks l)

def countHandshake (b : Board) (outcome : String) : Board :=
  b.measure fun m => { m with handshakes := m.handshakes.inc [("outcome", outcome)] }

def await (b : Board) (peer : Net.Address) (h : Handshake) : Board :=
  { b with awaited := b.awaited ++ [⟨b.nextUpgrade, peer, h⟩], nextUpgrade := b.nextUpgrade + 1 }

def takeUpgrade (b : Board) (number : Nat) : Option Upgrade × Board :=
  (b.awaited.find? (·.number == number),
    { b with awaited := b.awaited.filter (·.number != number) })

end Board

end WsGateway
