import WsGateway.Config.Basic
import WsGateway.Text.Octets

/-!
# Frames

The messages that a web socket carries, and the limits on their size.
-/

namespace WsGateway

open Text (Octets)

/-- One message of a web socket. -/
inductive Frame where
  | text (s : String)
  | binary (payload : Octets)
  | ping (payload : Octets)
  | pong (payload : Octets)
  /-- The end of the session, with a code and a reason if they were given. -/
  | close (reason : Option (Nat × String))
  /-- A frame that is passed on as it came. -/
  | raw (payload : Octets)
  deriving DecidableEq, Repr

namespace Frame

def kind : Frame → String
  | .text _ => "text"
  | .binary _ => "binary"
  | .ping _ => "ping"
  | .pong _ => "pong"
  | .close _ => "close"
  | .raw _ => "raw"

end Frame

/-- The greatest sizes in octets of a frame and of a whole message. -/
structure FrameLimits where
  maxFrame : UInt64
  maxMessage : UInt64
  deriving DecidableEq, Repr

namespace WsSection

/-- The limits of a configuration: without aggregation a message is not larger than a frame. -/
def limits (s : WsSection) : FrameLimits :=
  ⟨s.maxFrameBytes, if s.aggregationEnabled then s.maxMessageBytes else s.maxFrameBytes⟩

end WsSection

end WsGateway
