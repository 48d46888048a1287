import WsGateway.Config.Overrides
import WsGateway.Config.Schema

/-!
# Loading a configuration

A configuration comes from a file, or from the defaults when there is no file; the environment
overrides it; and the result must keep the limits.
-/

namespace WsGateway

/-- What stands at a path. -/
inductive FileContent where
  | missing
  | text (s : String)
  /-- Something is there that cannot be read; the reason is the system's. -/
  | unreadable (reason : String)
  deriving DecidableEq, Repr

namespace Config

def pathVariable : String := "MWS_CONFIG"

/-- The configuration file when the variable is not set. -/
def defaultPath : String := "metricws.yaml"

/-- The system's reason for a file that is not there. -/
def missingReason : String := "No such file or directory (os error 2)"

def readError (path reason : String) : Error :=
  .config ("read config failed (" ++ path ++ "): " ++ reason)

/-- The configuration of a text, which must keep the limits. -/
def loadText (text : String) : Except Error Config := do
  let c ← ofYaml text
  c.validate
  pure c

def loadFile (path : String) (content : FileContent) : Except Error Config :=
  match content with
  | .missing => .error (readError path missingReason)
  | .unreadable reason => .error (readError path reason)
  | .text s => loadText s

/-- The configuration of a file, or the defaults if there is none, without a check of its
limits. -/
def base (path : String) (content : FileContent) : Except Error Config :=
  match content with
  | .missing => .ok {}
  | .unreadable reason => .error (readError path reason)
  | .text s => ofYaml s

/-- The configuration of a file, or the defaults, with the overrides of an environment; the
result must keep the limits. -/
def loadLayered (path : String) (content : FileContent) (environment : Environment) :
    Except Error Config := do
  let c ← base path content
  let (applied, c) := c.applyEnvironment environment
  let _ ← applied
  c.validate
  pure c

end Config

end WsGateway
