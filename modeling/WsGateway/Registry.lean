import WsGateway.Links

/-!
# The registry of connections

The connections that are live, by their ids, and the id of the next one.
-/

namespace WsGateway

/-- The live connections, and the last id that was given out. -/
structure Registry where
  lastId : UInt64
  conns : FinMap UInt64 Link

namespace Registry

def empty : Registry := ⟨0, .empty⟩

def nextId (r : Registry) : UInt64 × Registry :=
  (r.lastId + 1, { r with lastId := r.lastId + 1 })

/-- The registry with a connection; one with the same id is replaced. -/
def insert (r : Registry) (k : Link) : Registry := { r with conns := r.conns.insert k.id k }

def remove (r : Registry) (id : UInt64) : Registry := { r with conns := r.conns.erase id }

def get? (r : Registry) (id : UInt64) : Option Link := r.conns.get? id

def size (r : Registry) : Nat := r.conns.size

def closeAll (r : Registry) (l : Links) : Links := r.conns.values.foldl Links.close l

end Registry

end WsGateway
