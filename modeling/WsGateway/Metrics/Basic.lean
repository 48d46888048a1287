import WsGateway.FinMap

/-!
# Metrics

Counters, gauges and histograms by sets of labels. The order in which labels are given does not
matter, so a series is found by its labels in sorted order. All numbers have 64 bits and wrap
around.
-/

namespace WsGateway

abbrev Labels := List (String × String)

namespace Labels

/-- The order of labels: by name, and by value where names agree. -/
def before (a b : String × String) : Bool :=
  if a.1 = b.1 then decide (a.2 ≤ b.2) else decide (a.1 ≤ b.1)

/-- The labels in sorted order, by which a series is found. -/
def sorted (labels : Labels) : Labels := labels.mergeSort before

end Labels

abbrev CounterFamily := FinMap Labels UInt64

namespace CounterFamily

/-- The value of a counter; one that was never touched is zero. -/
def count (f : CounterFamily) (labels : Labels) : UInt64 := (f.get? labels.sorted).getD 0

def add (f : CounterFamily) (labels : Labels) (n : UInt64) : CounterFamily :=
  f.insert labels.sorted (f.count labels + n)

def inc (f : CounterFamily) (labels : Labels) : CounterFamily := f.add labels 1

end CounterFamily

abbrev GaugeFamily := FinMap Labels Int64

namespace GaugeFamily

/-- The value of a gauge; one that was never touched is zero. -/
def level (f : GaugeFamily) (labels : Labels) : Int64 := (f.get? labels.sorted).getD 0

def add (f : GaugeFamily) (labels : Labels) (n : Int64) : GaugeFamily :=
  f.insert labels.sorted (f.level labels + n)

def inc (f : GaugeFamily) (labels : Labels) : GaugeFamily := f.add labels 1

def dec (f : GaugeFamily) (labels : Labels) : GaugeFamily := f.add labels (-1)

end GaugeFamily

/-- The observations of one series: how many, their sum in microseconds, and for each bound how
many do not exceed it. -/
structure Histogram where
  count : UInt64
  sum : UInt64
  buckets : List UInt64
  deriving DecidableEq, Repr

namespace Histogram

/-- The bounds of the buckets in microseconds. -/
def bounds : List UInt64 := [100, 500, 1000, 5000, 10000, 50000, 100000, 500000, 1000000]

def empty : Histogram := ⟨0, 0, bounds.map fun _ => 0⟩

/-- A duration in whole microseconds, as far as 64 bits hold it. -/
def micros (nanoseconds : Nat) : UInt64 :=
  UInt64.ofNat (min (nanoseconds / 1000) 18446744073709551615)

def observe (h : Histogram) (nanoseconds : Nat) : Histogram :=
  let m := micros nanoseconds
  ⟨h.count + 1, h.sum + m,
    List.zipWith (fun bound n => if m ≤ bound then n + 1 else n) bounds h.buckets⟩

end Histogram

abbrev HistogramFamily := FinMap Labels Histogram

namespace HistogramFamily

/-- The histogram of a series; one that was never touched is empty. -/
def histogram (f : HistogramFamily) (labels : Labels) : Histogram :=
  (f.get? labels.sorted).getD .empty

def observe (f : HistogramFamily) (labels : Labels) (nanoseconds : Nat) : HistogramFamily :=
  f.insert labels.sorted ((f.histogram labels).observe nanoseconds)

def count (f : HistogramFamily) (labels : Labels) : UInt64 := (f.histogram labels).count

end HistogramFamily

structure Metrics where
  /-- HTTP requests by route; unrouted ones count under a hyphen. -/
  httpRequests : CounterFamily := .empty
  /-- Dispatched requests by operation. -/
  wsRequests : CounterFamily := .empty
  /-- Failures of handlers by side. -/
  handlerErrors : CounterFamily := .empty
  /-- Upgrade attempts by outcome. -/
  handshakes : CounterFamily := .empty
  wsSessionsActive : GaugeFamily := .empty
  dispatchDuration : HistogramFamily := .empty
  decodeErrors : CounterFamily := .empty
  unknownOps : CounterFamily := .empty
  /-- Refused frames by kind. -/
  framesRejected : CounterFamily := .empty
  draining : Bool := false

/-- The totals that the demultiplexer keeps. -/
structure Counters where
  httpRequests : UInt64 := 0
  wsRequests : UInt64 := 0
  errors : UInt64 := 0
  deriving DecidableEq, Repr

namespace Counters

def httpRequest (c : Counters) : Counters := { c with httpRequests := c.httpRequests + 1 }

def wsRequest (c : Counters) : Counters := { c with wsRequests := c.wsRequests + 1 }

def error (c : Counters) : Counters := { c with errors := c.errors + 1 }

/-- The totals by the names under which they are shown. -/
def named (c : Counters) : List (String × UInt64) :=
  [("metricws_demux_http_requests_total", c.httpRequests),
    ("metricws_demux_ws_requests_total", c.wsRequests),
    ("metricws_demux_errors_total", c.errors)]

end Counters

end WsGateway
