import WsGateway.Frame

/-!
# Reading from a socket

What the reading side of a socket makes of the messages that arrive: it joins fragments, refuses
what exceeds the limits, and answers pings and the first close frame by itself.
-/

namespace WsGateway

open Text (Octets)

/-- What a client sends at once. -/
inductive Message where
  | whole (f : Frame)
  /-- One text in several fragments. -/
  | fragments (parts : List String)
  deriving DecidableEq, Repr

/-- What comes of a message. -/
inductive Reading where
  /-- A frame for the session, and what the socket itself answers. -/
  | frame (f : Frame) (answer : Option Frame)
  /-- Nothing more can be read. -/
  | failure
  deriving DecidableEq, Repr

namespace Frame

/-- The number of octets of a frame's payload. A close frame's code takes two. -/
def payloadSize : Frame → Nat
  | .text s => s.utf8ByteSize
  | .binary p | .ping p | .pong p | .raw p => p.length
  | .close none => 0
  | .close (some (_, reason)) => 2 + reason.utf8ByteSize

def isControl : Frame → Bool
  | .ping _ | .pong _ | .close _ => true
  | .text _ | .binary _ | .raw _ => false

def maxControlSize : Nat := 125

end Frame

/-- The code may stand in a close frame: the assigned ones that are meant to be sent, and those
for libraries and applications. -/
def isCloseCode (code : Nat) : Bool :=
  (1000 ≤ code && code ≤ 1003) || (1007 ≤ code && code ≤ 1013) || (3000 ≤ code && code ≤ 4999)

/-- The answer to a client's close frame: the same one, unless its code must not be used. -/
def closeAnswer : Option (Nat × String) → Frame
  | some (code, reason) =>
    if isCloseCode code then .close (some (code, reason))
    else .close (some (1002, "Protocol violation"))
  | none => .close none

namespace FrameLimits

def admitsFrame (l : FrameLimits) (size : Nat) : Bool := size ≤ l.maxFrame.toNat

def admitsMessage (l : FrameLimits) (size : Nat) : Bool := size ≤ l.maxMessage.toNat

/-- What a socket with the limits makes of a frame. A raw frame has no kind of its own and arrives
as binary data. -/
def readFrame (l : FrameLimits) (f : Frame) : Reading :=
  let size := f.payloadSize
  if !l.admitsFrame size then .failure
  else if f.isControl then
    if Frame.maxControlSize < size then .failure
    else
      match f with
      | .ping payload => .frame f (some (.pong payload))
      | .close reason => .frame f (some (closeAnswer reason))
      | f => .frame f none
  else if l.admitsMessage size then
    match f with
    | .raw payload => .frame (.binary payload) none
    | f => .frame f none
  else .failure

/-- What a socket with the limits makes of a message. -/
def read (l : FrameLimits) : Message → Reading
  | .whole f => l.readFrame f
  | .fragments parts =>
    let sizes := parts.map String.utf8ByteSize
    if sizes.all l.admitsFrame && l.admitsMessage (sizes.foldr (· + ·) 0) then
      .frame (.text (String.join parts)) none
    else .failure

end FrameLimits

end WsGateway
