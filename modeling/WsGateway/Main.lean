import WsGateway.Host
import WsGateway.Startup

/-!
# The command line

Starts a gateway from its environment and serves one client on the console: each line of the
input is a text message of the client, and what the client is sent is printed line by line.
-/

namespace WsGateway.Console

def readEnvironment : IO Environment := do
  let names := Config.pathVariable :: Setting.table.map Setting.envVar
  let values ← names.filterMapM fun name => do
    let value ← IO.getEnv name
    pure (value.map fun v => (name, v))
  pure fun name => (values.find? (·.1 == name)).map Prod.snd

def readContent (path : String) : IO FileContent :=
  try
    let text ← IO.FS.readFile path
    pure (.text text)
  catch e =>
    match e with
    | .noFileOrDirectory _ _ _ => pure .missing
    | e => pure (.unreadable (toString e))

def peer : Net.Address := .v4 [127, 0, 0, 1] 0

def clientName : String := "console"

def upgradeRequest (config : Config) : Http.Request :=
  ⟨"GET", "/" ++ config.ws.path,
    [("connection", Http.headerValue "upgrade"), ("upgrade", Http.headerValue "websocket"),
      ("sec-websocket-version", Http.headerValue Handshake.version),
      ("sec-websocket-key", Http.headerValue "AAAAAAAAAAAAAAAAAAAAAA==")], [], true⟩

def arrivalLine : Arrival → Option String
  | .frame (.text s) => some s
  | .frame _ | .ended _ => none

def printArrivals (h : Host) : IO Host := do
  let (arrivals, h) := h.collect
  for line in (arrivals.flatMap Prod.snd).filterMap arrivalLine do
    IO.println line
  pure h

/-- The clock of the host follows that of the machine, which read `last` before. -/
def followClock (h : Host) (last : Nat) : IO (Nat × Host) := do
  let now ← IO.monoMsNow
  pure (now, h.advance (now - last))

partial def serve (input : IO.FS.Stream) (last : Nat) (h : Host) : IO Unit := do
  let line ← input.getLine
  if line.isEmpty then pure ()
  else
    let (last, h) ← followClock h last
    let text := if line.endsWith "\n" then (line.dropEnd 1).toString else line
    let h ← printArrivals (h.send 0 clientName (.whole (.text text)))
    serve input last h

def run (g : Gateway) : IO Unit := do
  let (_, h) := (Host.start g).startHeartbeat.connect clientName (upgradeRequest g.config) peer
  let now ← IO.monoMsNow
  serve (← IO.getStdin) now h

end WsGateway.Console

open WsGateway in
/-- Starts the gateway and serves the console, or reports why it does not start. -/
def main : IO UInt32 := do
  let environment ← Console.readEnvironment
  let content ← Console.readContent (Startup.configPath environment)
  match Startup.start environment (fun _ => content) (fun _ => true) with
  | .error refusal =>
    IO.eprint (refusal.report.getD "")
    pure refusal.exitCode.toUInt32
  | .ok (gateway, _) =>
    Console.run gateway
    pure 0
