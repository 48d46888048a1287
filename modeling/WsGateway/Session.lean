import WsGateway.Demux

/-!
# Sessions

An upgrade that was promised is completed when its stream arrives, or given up. A completed one
becomes a session: it has a connection of its own, which is registered and counted as long as
the session lasts. No session opens if the queue of its connection cannot be made. Frames of the
client are handled in the order in which they come; a close frame, and nothing else that a
client can send, ends the session.
-/

namespace WsGateway

structure Session where
  link : Link
  handshake : Handshake
  deriving DecidableEq, Repr

namespace Session

/-- A session opens: a connection with a fresh id is registered and counted. The id is used up
even if the connection's queue would be too long to be made. -/
def start (config : Config) (peer : Net.Address) (h : Handshake) (b : Board) :
    Option Session × Board :=
  let (id, registry) := b.registry.nextId
  let queue := config.gateway.outboundQueue.toNat
  if Connection.maxCapacity < queue then (none, { b with registry := registry })
  else
    let (link, links) := b.links.open id peer queue
    let b := { b.setLinks links with registry := registry.insert link }
    (some ⟨link, h⟩, b.measure fun m => { m with wsSessionsActive := m.wsSessionsActive.inc [] })

/-- A frame that the session does not support is counted and answered with an error. -/
def reject (s : Session) (f : Frame) (e : Error) (b : Board) : Board :=
  let b := b.countError.measure fun m =>
    { m with framesRejected := m.framesRejected.inc [("kind", f.kind)] }
  b.setLinks (sendFailure s.link 0 none e.message b.links)

/-- A frame of the client is handled in `elapsed` nanoseconds; the answer is whether the session
goes on. -/
def onFrame (s : Session) (g : Gateway) (elapsed : Nat) (f : Frame) (b : Board) : Bool × Board :=
  match s.handshake.onFrame f with
  | .ok .forward => (true, (g.onFrame elapsed s.link f b).2)
  | .ok (.pong payload) => (true, b.setLinks (b.links.write s.link (.pong payload)).2)
  | .ok .ignore => (true, b)
  | .ok .close => (false, b)
  | .error e => (true, s.reject f e b)

def onFrames (s : Session) (g : Gateway) (elapsed : Nat) : List Frame → Board → Bool × Board
  | [], b => (true, b)
  | f :: rest, b =>
    match s.onFrame g elapsed f b with
    | (true, b) => s.onFrames g elapsed rest b
    | (false, b) => (false, b)

/-- The connection was closed by someone else. -/
def isClosed (s : Session) (b : Board) : Bool := (b.links.get? s.link).any (·.closed)

/-- A session ends, for whatever reason: its connection is closed, its subscriptions are purged,
and it is neither registered nor counted any more. -/
def finish (s : Session) (b : Board) : Board :=
  let b := b.setLinks (b.links.close s.link)
  let b := b.setSubscriptions (b.subscriptions.purge s.link.id).2
  let b := { b with registry := b.registry.remove s.link.id }
  b.measure fun m => { m with wsSessionsActive := m.wsSessionsActive.dec [] }

end Session

namespace Gateway

/-- The stream of an awaited upgrade arrives, and its session opens if it can. -/
def completeUpgrade (g : Gateway) (number : Nat) (b : Board) : Option Session × Board :=
  match b.takeUpgrade number with
  | (none, b) => (none, b)
  | (some u, b) =>
    Session.start g.config u.peer u.handshake.onUpgraded (b.countHandshake "upgraded")

end Gateway

namespace Board

/-- An awaited upgrade is given up and counted under an outcome. -/
def giveUpUpgrade (b : Board) (number : Nat) (outcome : String) : Board :=
  match b.takeUpgrade number with
  | (none, b) => b
  | (some _, b) => b.countHandshake outcome

def failUpgrade (b : Board) (number : Nat) : Board := b.giveUpUpgrade number "failed"

def expireUpgrade (b : Board) (number : Nat) : Board := b.giveUpUpgrade number "timeout"

end Board

end WsGateway
