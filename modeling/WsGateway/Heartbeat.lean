import WsGateway.Gateway.Board
import WsGateway.Operation.Builtin

/-!
# Heartbeat publishers

A publisher sends the first beat at once and then one each period. A beat that is too late puts
off those that follow, so beats are never made up for.
-/

namespace WsGateway

/-- A publisher: when its next beat is due in milliseconds, and the number of its last one. -/
structure Pulse where
  due : Nat
  seq : UInt64
  deriving DecidableEq, Repr

/-- One beat is published; the answer is how many subscribers it was queued for. -/
def Board.beat (b : Board) (seq : UInt64) (now : Nat) : Except Error Nat × Board :=
  b.publish Heartbeat.op (Heartbeat.beat seq (UInt64.ofNat now))

namespace Pulse

/-- How late in milliseconds a beat can be without putting off those that follow. -/
def lateness : Nat := 5

/-- When the beat after the one is due that is published now. -/
def nextDue (period now due : Nat) : Nat :=
  if due + lateness < now then now + period else due + period

theorem lt_nextDue {period now due : Nat} (h : 0 < period) (hd : due ≤ now) :
    due < nextDue period now due := by
  unfold nextDue
  split <;> omega

/-- The publisher catches up with the clock: the beats that are due are published. -/
def catchUp (period now : Nat) (hp : 0 < period) (p : Pulse) (b : Board) : Pulse × Board :=
  if hd : p.due ≤ now then
    let seq := p.seq + 1
    catchUp period now hp ⟨nextDue period now p.due, seq⟩ (b.beat seq now).2
  else (p, b)
termination_by now + 1 - p.due
decreasing_by
  have := lt_nextDue hp hd
  omega

/-- Publishers catch up with the clock one after another. -/
def catchUpAll (period now : Nat) (hp : 0 < period) : List Pulse → Board → List Pulse × Board
  | [], b => ([], b)
  | p :: rest, b =>
    let (p, b) := catchUp period now hp p b
    let (rest, b) := catchUpAll period now hp rest b
    (p :: rest, b)

/-- Publishers go on at a time. While the gateway is draining those with a beat that is due stop,
and without a period there are none. -/
def run (period now : Nat) (pulses : List Pulse) (b : Board) : List Pulse × Board :=
  if b.isDraining then (pulses.filter fun p => now < p.due, b)
  else if hp : 0 < period then catchUpAll period now hp pulses b
  else ([], b)

end Pulse

end WsGateway
