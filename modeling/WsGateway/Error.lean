/-!
# Errors

What can go wrong in the gateway, the code that clients see for it, and its wording.
-/

namespace WsGateway

inductive Error where
  /-- Malformed input. -/
  | badRequest (text : String)
  /-- No handler for the route or the operation. -/
  | notFound (text : String)
  /-- The name or the correlation id is taken. -/
  | duplicate (text : String)
  /-- The payload is too large. -/
  | payloadTooLarge
  /-- The kind of frame or the mode is not supported. -/
  | unsupported (text : String)
  /-- The version of the protocol is not supported. -/
  | unsupportedVersion
  /-- The target connection is gone. -/
  | closed
  /-- The configuration is invalid. -/
  | config (text : String)
  /-- The server failed. -/
  | internal (text : String)
  deriving DecidableEq, Repr

namespace Error

/-- The code that clients see; it does not change between releases. -/
def code : Error → String
  | .badRequest _ => "BAD_REQUEST"
  | .notFound _ => "NOT_FOUND"
  | .duplicate _ => "DUPLICATE"
  | .payloadTooLarge => "PAYLOAD_TOO_LARGE"
  | .unsupported _ => "UNSUPPORTED"
  | .unsupportedVersion => "UNSUPPORTED_VERSION"
  | .closed => "CLOSED"
  | .config _ => "CONFIG"
  | .internal _ => "INTERNAL"

def message : Error → String
  | .badRequest text => "bad request: " ++ text
  | .notFound text => "not found: " ++ text
  | .duplicate text => "duplicate: " ++ text
  | .payloadTooLarge => "payload too large"
  | .unsupported text => "unsupported: " ++ text
  | .unsupportedVersion => "unsupported protocol version"
  | .closed => "connection closed"
  | .config text => "config: " ++ text
  | .internal text => "internal: " ++ text

/-- The error of a kind by its name; kinds without a text of their own drop it, and an unknown name
stands for a failure of the server. -/
def ofKind (kind text : String) : Error :=
  match kind with
  | "BadRequest" => .badRequest text
  | "NotFound" => .notFound text
  | "Duplicate" => .duplicate text
  | "PayloadTooLarge" => .payloadTooLarge
  | "Unsupported" => .unsupported text
  | "UnsupportedVersion" => .unsupportedVersion
  | "Closed" => .closed
  | "Config" => .config text
  | _ => .internal text

/-- The client caused the error, by breaking the protocol or by asking for what is not there. -/
def isClientFault : Error → Bool
  | .badRequest _ | .notFound _ | .duplicate _ | .payloadTooLarge | .unsupported _
  | .unsupportedVersion => true
  | .closed | .config _ | .internal _ => false

end Error

end WsGateway
