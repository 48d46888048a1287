import WsGateway.Metrics.Basic

/-!
# Exposition of metrics

The text format that scrapers read: for each family a line with its type, then its series one a
line. Label values are escaped so that a series never takes more than its lines.
-/

namespace WsGateway

namespace Labels

/-- A text with another one in place of each occurrence of a character. -/
def replaced (c : Char) (new s : List Char) : List Char :=
  s.flatMap fun d => if d = c then new else [d]

/-- A label's value with backslashes escaped, then quotes, then line feeds. -/
def escaped (value : String) : String :=
  let s := replaced '\\' ['\\', '\\'] value.toList
  let s := replaced '"' ['\\', '"'] s
  String.ofList (replaced '\n' ['\\', 'n'] s)

def labelText (label : String × String) : String :=
  label.1 ++ "=\"" ++ escaped label.2 ++ "\""

def text (labels : Labels) : String :=
  String.intercalate "," (labels.map labelText)

end Labels

namespace Exposition

def typeLine (name kind : String) : String := "# TYPE " ++ name ++ " " ++ kind

def seriesLine (name : String) (labels : Labels) (value : String) : String :=
  if labels.isEmpty then name ++ " " ++ value
  else name ++ "\x7b" ++ labels.text ++ "\x7d " ++ value

def counterLines (name : String) (f : CounterFamily) : List String :=
  typeLine name "counter" ::
    f.entries.map fun (labels, n) => seriesLine name labels (toString n.toNat)

def gaugeLines (name : String) (f : GaugeFamily) : List String :=
  typeLine name "gauge" ::
    f.entries.map fun (labels, n) => seriesLine name labels (toString n.toInt)

def bucketLine (name : String) (labels : Labels) (bound : String) (n : UInt64) : String :=
  let others := if labels.text.isEmpty then "" else labels.text ++ ","
  name ++ "_bucket\x7b" ++ others ++ "le=\"" ++ bound ++ "\"\x7d " ++ toString n.toNat

/-- The lines of one histogram: its buckets, the one without bound, sum and count. -/
def histogramSeries (name : String) (labels : Labels) (h : Histogram) : List String :=
  List.zipWith (fun (bound n : UInt64) => bucketLine name labels (toString bound.toNat) n)
      Histogram.bounds h.buckets
    ++ [bucketLine name labels "+Inf" h.count,
      seriesLine (name ++ "_sum") labels (toString h.sum.toNat),
      seriesLine (name ++ "_count") labels (toString h.count.toNat)]

def histogramLines (name : String) (f : HistogramFamily) : List String :=
  typeLine name "histogram" :: f.entries.flatMap fun (labels, h) => histogramSeries name labels h

end Exposition

namespace Metrics

open Exposition

/-- The lines of all families, followed by lines of further names and values. -/
def lines (m : Metrics) (extra : List (String × UInt64)) : List String :=
  counterLines "metricws_http_requests_total" m.httpRequests
    ++ counterLines "metricws_ws_requests_total" m.wsRequests
    ++ counterLines "metricws_handler_errors_total" m.handlerErrors
    ++ counterLines "metricws_handshakes_total" m.handshakes
    ++ gaugeLines "metricws_ws_sessions_active" m.wsSessionsActive
    ++ histogramLines "metricws_dispatch_duration_micros" m.dispatchDuration
    ++ counterLines "metricws_decode_errors_total" m.decodeErrors
    ++ counterLines "metricws_unknown_ops_total" m.unknownOps
    ++ counterLines "metricws_frames_rejected_total" m.framesRejected
    ++ [typeLine "metricws_draining" "gauge",
      "metricws_draining " ++ (if m.draining then "1" else "0")]
    ++ extra.map fun (name, n) => name ++ " " ++ toString n.toNat

/-- The text of all families and further lines, each line ended. -/
def render (m : Metrics) (extra : List (String × UInt64)) : String :=
  String.join ((m.lines extra).map (· ++ "\n"))

end Metrics

end WsGateway
