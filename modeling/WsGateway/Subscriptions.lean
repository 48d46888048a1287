import WsGateway.Reply

/-!
# Subscriptions

Who gets the events of which operation. A subscription is found by its connection and its
correlation id; two indexes, by operation and by connection, spare a search through all of
them.
-/

namespace WsGateway

/-- What a subscription is found by: the id of its connection and its correlation id. -/
abbrev SubscriptionKey := UInt64 × Int64

structure Subscription where
  rerid : Int64
  op : String
  link : Link
  deriving DecidableEq, Repr

/-- The subscriptions, and the keys of those of an operation and of a connection. -/
structure Subscriptions where
  subs : FinMap SubscriptionKey Subscription
  byOp : FinMap String (List SubscriptionKey)
  byConn : FinMap UInt64 (List Int64)

/-- An index with one more item for a key. -/
def indexInsert {κ α : Type} [DecidableEq κ] [DecidableEq α] (m : FinMap κ (List α)) (k : κ)
    (a : α) : FinMap κ (List α) :=
  m.insert k (((m.get? k).getD []).insert a)

/-- An index with one item less for a key; a key without items leaves the index. -/
def indexErase {κ α : Type} [DecidableEq κ] [DecidableEq α] (m : FinMap κ (List α)) (k : κ)
    (a : α) : FinMap κ (List α) :=
  match m.get? k with
  | none => m
  | some items =>
    let rest := items.erase a
    if rest.isEmpty then m.erase k else m.insert k rest

namespace Subscriptions

def empty : Subscriptions := ⟨.empty, .empty, .empty⟩

def keyOf (k : Link) (rerid : Int64) : SubscriptionKey := (k.id, rerid)

def contains (t : Subscriptions) (conn : UInt64) (rerid : Int64) : Bool :=
  t.subs.contains (conn, rerid)

def size (t : Subscriptions) : Nat := t.subs.size

def duplicateError (rerid : Int64) : Error :=
  .duplicate ("subscription " ++ toString rerid.toInt ++ " already active on this connection")

/-- One more subscription, unless the connection has one with the id. -/
def subscribe (t : Subscriptions) (k : Link) (rerid : Int64) (op : String) :
    Except Error Subscriptions :=
  let key := keyOf k rerid
  if t.subs.contains key then .error (duplicateError rerid)
  else
    .ok ⟨t.subs.insert key ⟨rerid, op, k⟩, indexInsert t.byOp op key,
      indexInsert t.byConn k.id rerid⟩

/-- One subscription less: the one that is taken out, if it was there. -/
def unsubscribe (t : Subscriptions) (conn : UInt64) (rerid : Int64) :
    Option Subscription × Subscriptions :=
  match t.subs.get? (conn, rerid) with
  | none => (none, t)
  | some s =>
    (some s,
      ⟨t.subs.erase (conn, rerid), indexErase t.byOp s.op (conn, rerid),
        indexErase t.byConn conn rerid⟩)

/-- The subscriptions with the ids are taken out for a connection, and counted. -/
def dropAll (conn : UInt64) : List Int64 → Subscriptions → Nat × Subscriptions
  | [], t => (0, t)
  | rerid :: rest, t =>
    match t.subs.get? (conn, rerid) with
    | none => dropAll conn rest t
    | some s =>
      let t := { t with
        subs := t.subs.erase (conn, rerid), byOp := indexErase t.byOp s.op (conn, rerid) }
      let (n, t) := dropAll conn rest t
      (n + 1, t)

/-- All subscriptions of a connection are taken out, and counted. -/
def purge (t : Subscriptions) (conn : UInt64) : Nat × Subscriptions :=
  match t.byConn.get? conn with
  | none => (0, t)
  | some rerids => dropAll conn rerids { t with byConn := t.byConn.erase conn }

def subscribers (t : Subscriptions) (op : String) : List Subscription :=
  ((t.byOp.get? op).getD []).filterMap t.subs.get?

/-- An event with a content is sent to one subscriber; the answer is how many frames were
accepted. -/
def notify (op : String) (v : Json.Value) (s : Subscription) (l : Links) : Nat × Links :=
  let (instanceId, l) := l.freshInstance
  let event : Response := ⟨instanceId, s.rerid, .event, some op, .content v⟩
  let (delivery, l) := l.write s.link (.text event.print)
  (delivery.toList.length, l)

/-- An event is sent to subscribers one after another; the answer is how many frames were
accepted. -/
def notifyAll (op : String) (v : Json.Value) : List Subscription → Links → Nat × Links
  | [], l => (0, l)
  | s :: rest, l =>
    let (n, l) := notify op v s l
    let (m, l) := notifyAll op v rest l
    (n + m, l)

/-- An event is sent to every subscriber of an operation; those that do not accept it are
passed over. -/
def publish (t : Subscriptions) (op : String) (c : Content) (l : Links) :
    Except Error Nat × Links :=
  match c.toValue with
  | .error message => (.error (.internal (op ++ " event encode failed: " ++ message)), l)
  | .ok v =>
    let (n, l) := notifyAll op v (t.subscribers op) l
    (.ok n, l)

end Subscriptions

end WsGateway
