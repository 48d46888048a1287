import WsGateway.Links

/-!
# Replies

A response on its way to a connection. Sending skips connections that do not accept the frame,
and promises one delivery for each one that does.
-/

namespace WsGateway

/-- A response and the connection that it is for. -/
structure Reply where
  response : Response
  target : Link

/-- A response that is being streamed to a connection; nothing is sent before it is finished. -/
structure StreamingReply where
  writer : StreamWriter
  target : Link

namespace Reply

def setOp (r : Reply) (op : String) : Reply := { r with response := r.response.setOp op }

def setContent (r : Reply) (c : Content) : Except Error Reply := do
  let response ← r.response.setContent c
  pure { r with response := response }

/-- A reply of another kind with the same id, operation and connection, and no body yet. -/
def promote (r : Reply) (kind : ResponseKind) (l : Links) : Reply × Links :=
  let (instanceId, l) := l.freshInstance
  (⟨r.response.cloneAs instanceId kind, r.target⟩, l)

/-- A text is put in the queues of connections, one after another; the deliveries are those of
the connections that accepted it. -/
def broadcast (text : String) : List Link → Links → List Delivery × Links
  | [], l => ([], l)
  | k :: rest, l =>
    let (delivery, l) := l.write k (.text text)
    let (deliveries, l) := broadcast text rest l
    (delivery.toList ++ deliveries, l)

def sendTo (r : Reply) (targets : List Link) (l : Links) : Except Error (List Delivery) × Links :=
  match r.response.encode with
  | .error e => (.error e, l)
  | .ok text =>
    let (deliveries, l) := broadcast text targets l
    (.ok deliveries, l)

def send (r : Reply) (l : Links) : Except Error (List Delivery) × Links := r.sendTo [r.target] l

def stream (r : Reply) (shape : StreamShape) : Except Error StreamingReply := do
  let (_, writer) ← r.response.beginStream shape
  pure ⟨writer, r.target⟩

end Reply

namespace StreamingReply

def entry (s : StreamingReply) (key : String) (c : Content) : Except Error Unit × StreamingReply :=
  let (result, writer) := s.writer.entry key c.encoding
  (result, { s with writer := writer })

def push (s : StreamingReply) (c : Content) : Except Error Unit × StreamingReply :=
  let (result, writer) := s.writer.push c.encoding
  (result, { s with writer := writer })

def reset (s : StreamingReply) : StreamingReply := { s with writer := s.writer.reset }

def finish (s : StreamingReply) (l : Links) : Option Delivery × Links :=
  l.write s.target (.text s.writer.finish)

end StreamingReply

def sendFailure (k : Link) (rerid : Int64) (op : Option String) (message : String) (l : Links) :
    Links :=
  let (instanceId, l) := l.freshInstance
  ((Reply.mk (.failure instanceId rerid op message) k).send l).2

end WsGateway
