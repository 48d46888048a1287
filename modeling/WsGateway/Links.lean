import WsGateway.Connection
import WsGateway.Envelope.Response

/-!
# Links

All connections that were ever opened, and the number for the next response. A connection is
reached through a handle: its place and its id. Two handles with the same id may stand for
different connections, because an id can be used again once its connection is gone.
-/

namespace WsGateway

/-- The handle of a connection. -/
structure Link where
  slot : Nat
  id : UInt64
  deriving DecidableEq, Repr

/-- A promise for one accepted frame. -/
structure Delivery where
  link : Link
  ticket : Nat
  deriving DecidableEq, Repr

/-- The connections by their places, and the instance id of the next response. -/
structure Links where
  conns : List Connection
  nextInstance : UInt64

namespace Links

def empty : Links := ⟨[], 1⟩

def «open» (l : Links) (id : UInt64) (peer : Net.Address) (queue : Nat) : Link × Links :=
  (⟨l.conns.length, id⟩, { l with conns := l.conns ++ [.start id peer queue] })

def get? (l : Links) (k : Link) : Option Connection := l.conns[k.slot]?

def modify (l : Links) (k : Link) (f : Connection → Connection) : Links :=
  { l with conns := l.conns.modify k.slot f }

def isWritable (l : Links) (k : Link) : Bool := (l.get? k).any Connection.isWritable

/-- The frames that wait for the connection, oldest first. -/
def frames (l : Links) (k : Link) : List Frame := ((l.get? k).map Connection.frames).getD []

/-- A frame is put in the queue of the connection, if that accepts it. -/
def write (l : Links) (k : Link) (f : Frame) : Option Delivery × Links :=
  match l.get? k with
  | none => (none, l)
  | some c =>
    match c.write f with
    | (some ticket, c) => (some ⟨k, ticket⟩, l.modify k fun _ => c)
    | (none, _) => (none, l)

def close (l : Links) (k : Link) : Links := l.modify k Connection.close

/-- An instance id that no response had before. -/
def freshInstance (l : Links) : UInt64 × Links :=
  (l.nextInstance, { l with nextInstance := l.nextInstance + 1 })

def delivered? (l : Links) (d : Delivery) : Option Bool :=
  match l.get? d.link with
  | none => some false
  | some c => c.delivered? d.ticket

end Links

end WsGateway
