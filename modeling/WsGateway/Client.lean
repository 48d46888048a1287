import WsGateway.Frame.Reading
import WsGateway.Session
import WsGateway.Writer

/-!
# Clients

The two ends of one session together: what the client sends is read from the socket and handled
by the session, and what the session's writer sends is what the client gets to see.
-/

namespace WsGateway

/-- What a client gets to see. -/
inductive Arrival where
  | frame (f : Frame)
  /-- The socket is gone; it is a clean end if both sides had taken leave. -/
  | ended (clean : Bool)
  deriving DecidableEq, Repr

/-- A client and its session, with what it was sent and has not looked at yet. -/
structure Client where
  name : String
  /-- The session, as long as it goes on. -/
  session : Option Session
  writer : Writer
  arrivals : List Arrival
  /-- The client still holds its socket. -/
  present : Bool

namespace Client

/-- The client of a session that opened; without one its socket is gone at once. -/
def start (name : String) (session : Option Session) : Client :=
  ⟨name, session, .start, if session.isNone then [.ended false] else [], true⟩

def live (c : Client) : Bool := c.session.isSome

def see (c : Client) (arrivals : List Arrival) : Client :=
  { c with arrivals := c.arrivals ++ arrivals }

def depart (c : Client) : Client := { c with present := false }

/-- The writer of a session goes on as long as it can; the answer begins with what it sent. -/
def runWriter (accepts : Bool) (s : Session) (c : Client) (b : Board) :
    List Frame × Client × Board :=
  let (writer, links) := Writer.drainLink accepts c.writer s.link b.links
  (writer.wire.drop c.writer.wire.length, { c with writer := writer }, b.setLinks links)

def flush (s : Session) (c : Client) (b : Board) : Client × Board :=
  let (sent, c, b) := c.runWriter c.present s b
  (c.see (sent.map .frame), b)

/-- The session ends. Unless the client has taken leave, its writer sends what still waits. -/
def finish (clean : Bool) (s : Session) (c : Client) (b : Board) : Client × Board :=
  let b := s.finish b
  let (sent, c, b) := c.runWriter (c.present && !clean) s b
  let seen := if clean then [] else sent.map Arrival.frame
  ({ c with session := none }.see (seen ++ [Arrival.ended clean]), b)

/-- A message of the client is read and handled in `elapsed` nanoseconds. -/
def receive (g : Gateway) (elapsed : Nat) (m : Message) (s : Session) (c : Client) (b : Board) :
    Client × Board :=
  match g.config.ws.limits.read m with
  | .failure => c.finish false s b
  | .frame f answer =>
    let c := c.see (answer.toList.map .frame)
    match s.onFrame g elapsed f b with
    | (true, b) => (c, b)
    | (false, b) => c.finish true s b

/-- The session goes on without the client: it ends if the client is gone or the connection was
closed, and else sends what waits. -/
def settle (c : Client) (b : Board) : Client × Board :=
  match c.session with
  | none => (c, b)
  | some s => if !c.present || s.isClosed b then c.finish false s b else c.flush s b

/-- Clients settle one after another. -/
def settleAll : List Client → Board → List Client × Board
  | [], b => ([], b)
  | c :: rest, b =>
    let (c, b) := c.settle b
    let (rest, b) := settleAll rest b
    (c :: rest, b)

end Client

end WsGateway
