import WsGateway.Links

/-!
# Writers

A connection has one writer, which takes the frames from its queue and sends them to the client.
It goes on until a frame cannot be sent, or until the connection is closed and its queue is
empty; then it takes leave with a close frame, which may fail as any other frame.
-/

namespace WsGateway

inductive WriterStatus where
  | running
  /-- Every frame was sent, and the close frame after them. -/
  | finished
  /-- A frame could not be sent, be it the close frame. -/
  | failed
  deriving DecidableEq, Repr

/-- The writer of a connection, with the queued frames that it has sent, oldest first. -/
structure Writer where
  sent : List Frame
  status : WriterStatus
  deriving DecidableEq, Repr

namespace Writer

def start : Writer := ⟨[], .running⟩

/-- Everything that the client was sent. -/
def wire (w : Writer) : List Frame :=
  if w.status = .finished then w.sent ++ [.close none] else w.sent

/-- The connection of a writer that stops: it is closed, and what waits is lost. -/
def abandon (c : Connection) : Connection := c.close.stopReceiving

/-- One step of the writer: the next frame is sent, if the client still accepts it; without a
next frame the writer waits, or finishes if the connection is closed. -/
def step (accepts : Bool) (w : Writer) (c : Connection) : Writer × Connection :=
  if w.status ≠ .running then (w, c)
  else
    match c.take accepts with
    | some (f, c) =>
      if accepts then ({ w with sent := w.sent ++ [f] }, c)
      else ({ w with status := .failed }, abandon c)
    | none =>
      if c.closed then
        ({ w with status := if accepts then .finished else .failed }, c.stopReceiving)
      else (w, c)

def steps (accepts : Bool) : Nat → Writer → Connection → Writer × Connection
  | 0, w, c => (w, c)
  | n + 1, w, c =>
    let (w, c) := step accepts w c
    steps accepts n w c

/-- The writer goes on as long as it can: for each frame that waits, and once more to finish. -/
def drain (accepts : Bool) (w : Writer) (c : Connection) : Writer × Connection :=
  steps accepts (c.queue.length + 1) w c

/-- The writer of a connection among others goes on as long as it can. -/
def drainLink (accepts : Bool) (w : Writer) (k : Link) (l : Links) : Writer × Links :=
  match l.get? k with
  | none => (w, l)
  | some c =>
    let (w, c) := drain accepts w c
    (w, l.modify k fun _ => c)

end Writer

end WsGateway
