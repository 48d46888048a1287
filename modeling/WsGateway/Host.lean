import WsGateway.Client
import WsGateway.Heartbeat
import WsGateway.Http.Transfer

/-!
# Hosts

A gateway at work: a clock in milliseconds, publishers of heartbeats, upgrades that wait for
their streams, and clients with their sessions. Between two requests a host settles: everything
that can go on without the clients goes on until nothing is left to do.
-/

namespace WsGateway

/-- A gateway at work. -/
structure Host where
  gateway : Gateway
  board : Board
  now : Nat
  pulses : List Pulse
  /-- The numbers of awaited upgrades, with the times at which they are given up. -/
  deadlines : List (Nat × Nat)
  clients : List Client

namespace Host

def start (g : Gateway) : Host := ⟨g, .start, 0, [], [], []⟩

/-! ## Going on without the clients -/

/-- Sessions go on; those that have ended and whose clients are gone are forgotten. -/
def runClients (h : Host) : Host :=
  let (clients, b) := Client.settleAll h.clients h.board
  { h with clients := clients.filter fun c => c.present || c.live, board := b }

def runPulses (h : Host) : Host :=
  let period := h.gateway.config.services.heartbeatIntervalMs.toNat
  let (pulses, b) := Pulse.run period h.now h.pulses h.board
  { h with pulses := pulses, board := b }

/-- The upgrades whose time has come are given up. -/
def expireUpgrades (h : Host) : Host :=
  let (expired, rest) := h.deadlines.partition fun d => decide (d.2 ≤ h.now)
  { h with deadlines := rest, board := expired.foldl (fun b d => b.expireUpgrade d.1) h.board }

/-- Everything goes on until nothing is left to do. -/
def settle (h : Host) : Host := h.runClients.runPulses.expireUpgrades.runClients

def advance (h : Host) (milliseconds : Nat) : Host :=
  let h := h.settle
  { h with now := h.now + milliseconds }.settle

def startHeartbeat (h : Host) : Host :=
  let pulse : Pulse := ⟨h.now, 0⟩
  { h with pulses := h.pulses ++ [pulse] }.settle

/-! ## Upgrades -/

/-- An upgrade is awaited until its time has come. -/
def await (h : Host) (peer : Net.Address) (handshake : Handshake) : Host :=
  let deadline := h.now + h.gateway.config.gateway.handshakeTimeoutMs.toNat
  let deadlines := h.deadlines ++ [(h.board.nextUpgrade, deadline)]
  { h with deadlines := deadlines, board := h.board.await peer handshake }.settle

def failUpgrades (h : Host) : Host :=
  let b := h.deadlines.foldl (fun b d => b.failUpgrade d.1) h.board
  { h with deadlines := [], board := b }.settle

/-! ## Clients -/

def hasClients (h : Host) : Bool := h.clients.any (·.present)

def isClient (name : String) (c : Client) : Bool := c.present && c.name == name

def isLive (h : Host) (name : String) : Bool :=
  h.clients.any fun c => isClient name c && c.live

def depart (h : Host) (name : String) : Host :=
  { h with clients := h.clients.map fun c => if isClient name c then c.depart else c }

/-- The upgrade that a request has just been promised is completed for a client. -/
def completeUpgrade (h : Host) (name : String) (number : Nat) : Host :=
  let (session, b) := h.gateway.completeUpgrade number h.board
  let h := h.depart name
  { h with clients := h.clients ++ [.start name session], board := b }

/-- A request arrives on a connection of its own. The client of an upgraded one gets the name; if
no session opens for it the connection ends after the response. -/
def connect (h : Host) (name : String) (r : Http.Request) (peer : Net.Address) :
    Http.Transfer × Host :=
  let h := h.settle
  let number := h.board.nextUpgrade
  let r := r.received
  let (response, b) := h.gateway.onHttp r peer h.board
  let h := { h with board := b }
  let transfer := response.transfer r
  if h.board.nextUpgrade = number then (transfer, h.settle)
  else
    let h := h.completeUpgrade name number
    ({ transfer with closes := transfer.closes || !h.isLive name }, h.settle)

/-- A message is handled by the session of a client, the only one of its name. -/
def handleMessage (g : Gateway) (elapsed : Nat) (name : String) (m : Message) :
    List Client → Board → List Client × Board
  | [], b => ([], b)
  | c :: rest, b =>
    match (if isClient name c then c.session else none) with
    | some s =>
      let (c, b) := c.receive g elapsed m s b
      (c :: rest, b)
    | none =>
      let (rest, b) := handleMessage g elapsed name m rest b
      (c :: rest, b)

/-- A client sends a message, which is handled in `elapsed` nanoseconds. -/
def send (h : Host) (elapsed : Nat) (name : String) (m : Message) : Host :=
  let (clients, b) := handleMessage h.gateway elapsed name m h.clients h.board
  { h with clients := clients, board := b }.settle

def collect (h : Host) : List (String × List Arrival) × Host :=
  let present := h.clients.filter fun c => c.present && !c.arrivals.isEmpty
  (present.map fun c => (c.name, c.arrivals),
    { h with clients := h.clients.map fun c => { c with arrivals := [] } })

end Host

end WsGateway
