import WsGateway.FinMap
import WsGateway.Frame
import WsGateway.Json.Value

/-!
# Connections

One connection of a client: a bounded queue of frames that leave in the order in which they
were accepted. Every accepted frame has a ticket; `delivered?` tells what became of it. A frame
is accepted exactly while the connection is writable and its queue has room.
-/

namespace WsGateway

/-- A frame that waits in a queue, with its ticket. -/
structure Outbound where
  frame : Frame
  ticket : Nat
  deriving DecidableEq, Repr

/-- A connection. `accepted` counts the accepted frames and `flushed` lists the tickets of those
that reached the client. -/
structure Connection where
  id : UInt64
  peer : Net.Address
  capacity : Nat
  capacity_pos : 0 < capacity
  queue : List Outbound
  /-- Something still takes frames from the queue. -/
  receiving : Bool
  closed : Bool
  accepted : Nat
  flushed : List Nat
  options : FinMap String Json.Value

namespace Connection

/-- The greatest number of frames that a queue can be made for. -/
def maxCapacity : Nat := 2305843009213693951

/-- A new connection with room for `queue` frames, and for one at least. -/
def start (id : UInt64) (peer : Net.Address) (queue : Nat) : Connection :=
  ⟨id, peer, max queue 1, by omega, [], true, false, 0, [], .empty⟩

def isWritable (c : Connection) : Bool := !c.closed && c.receiving

def hasRoom (c : Connection) : Bool := c.queue.length < c.capacity

/-- The frame is put in the queue and gets a ticket, unless the connection is not writable or the
queue is full; then it is dropped. -/
def write (c : Connection) (f : Frame) : Option Nat × Connection :=
  if c.isWritable && c.hasRoom then
    (some c.accepted, { c with queue := c.queue ++ [⟨f, c.accepted⟩], accepted := c.accepted + 1 })
  else (none, c)

/-- No more frames are accepted; those in the queue may still leave. -/
def close (c : Connection) : Connection := { c with closed := true }

/-- The oldest frame is taken from the queue; `reached` tells whether the client got it. -/
def take (c : Connection) (reached : Bool) : Option (Frame × Connection) :=
  match c.queue with
  | [] => none
  | o :: rest =>
    some (o.frame,
      { c with queue := rest, flushed := if reached then o.ticket :: c.flushed else c.flushed })

def takeMany (c : Connection) (reached : Bool) : Nat → List Frame × Connection
  | 0 => ([], c)
  | n + 1 =>
    match c.take reached with
    | none => ([], c)
    | some (f, c) =>
      let (fs, c) := c.takeMany reached n
      (f :: fs, c)

/-- Nothing takes frames any more; those in the queue are lost. -/
def stopReceiving (c : Connection) : Connection :=
  { c with receiving := false, queue := [] }

/-- What became of the frame with a ticket: nothing yet while it waits, else whether the client
got it. -/
def delivered? (c : Connection) (ticket : Nat) : Option Bool :=
  if c.queue.any (·.ticket == ticket) then none else some (c.flushed.contains ticket)

def frames (c : Connection) : List Frame := c.queue.map Outbound.frame

def describe (c : Connection) : String :=
  "Connection \x7b id: " ++ toString c.id.toNat ++ ", peer: " ++ c.peer.print ++ ", writable: "
    ++ (if c.isWritable then "true" else "false") ++ " \x7d"

end Connection

end WsGateway
