import WsGateway.Error
import WsGateway.Envelope.Content

/-!
# Streamed responses

A response can be written entry by entry, so that its content never exists as one value. The
header comes first; an entry that fails leaves no trace, and all entries can be taken back.
-/

namespace WsGateway

inductive ResponseKind where
  /-- An answer. -/
  | response
  /-- A failure. -/
  | error
  /-- An event of a subscription. -/
  | event
  deriving DecidableEq, Repr

namespace ResponseKind

def code : ResponseKind → String
  | .response => "resp"
  | .error => "err"
  | .event => "sub"

def name : ResponseKind → String
  | .response => "Response"
  | .error => "Error"
  | .event => "Event"

def ofCode? (code : String) : Option ResponseKind :=
  if code = "resp" then some .response
  else if code = "err" then some .error
  else if code = "sub" then some .event
  else none

theorem ofCode?_code (k : ResponseKind) : ofCode? k.code = some k := by
  cases k <;> decide

end ResponseKind

inductive StreamShape where
  | object
  | array
  deriving DecidableEq, Repr

/-- A response that is being written. The buffer holds pieces of text, the first of which is
the header. -/
structure StreamWriter where
  shape : StreamShape
  buffer : Array String
  headerSize : Nat
  entries : Nat

namespace StreamWriter

def header (instanceId : UInt64) (rerid : Int64) (kind : ResponseKind) (op : String)
    (shape : StreamShape) : String :=
  "\x7b\"id\":" ++ toString instanceId.toNat ++ ",\"rerid\":" ++ toString rerid.toInt
    ++ ",\"t\":" ++ Json.printString kind.code ++ ",\"op\":" ++ Json.printString op
    ++ (match shape with
      | .object => ",\"msg\":\x7b"
      | .array => ",\"msg\":[")

theorem header_eq (instanceId : UInt64) (rerid : Int64) (kind : ResponseKind) (op : String)
    (shape : StreamShape) : header instanceId rerid kind op shape =
      "\x7b\"id\":" ++ toString instanceId.toNat ++ ",\"rerid\":" ++ toString rerid.toInt
        ++ ",\"t\":" ++ Json.printString kind.code ++ ",\"op\":" ++ Json.printString op
        ++ (match shape with
          | .object => ",\"msg\":\x7b"
          | .array => ",\"msg\":[") := rfl

def openWith (instanceId : UInt64) (rerid : Int64) (kind : ResponseKind) (op : String)
    (shape : StreamShape) : StreamWriter :=
  ⟨shape, #[header instanceId rerid kind op shape], 1, 0⟩

def text (w : StreamWriter) : String :=
  String.join w.buffer.toList

/-- The number of octets written so far. -/
def buffered (w : StreamWriter) : Nat :=
  w.buffer.toList.foldr (fun s n => s.utf8ByteSize + n) 0

/-- Nothing has been written behind the header. -/
def isEmpty (w : StreamWriter) : Bool := w.entries == 0

def put (w : StreamWriter) (piece : String) : StreamWriter :=
  { w with buffer := w.buffer.push piece }

/-- The writer cut back to the first `mark` pieces. -/
def truncate (w : StreamWriter) (mark : Nat) : StreamWriter :=
  { w with buffer := w.buffer.take mark }

/-- The writer behind the comma that separates a new entry from the one before. -/
def separate (w : StreamWriter) : StreamWriter :=
  if w.entries > 0 then w.put "," else w

/-- The writer after an encoding has been put behind `started`, where an entry has been begun.
An encoding that stopped early takes the entry back, to the first `mark` pieces; otherwise the
number of entries grows from `entries`. -/
def complete (mark entries : Nat) (started : StreamWriter) (e : Encoding) :
    Except Error Unit × StreamWriter :=
  let written := started.put e.written
  match e.failure with
  | some message =>
    (.error (.internal ("stream encode failed: " ++ message)), written.truncate mark)
  | none => (.ok (), { written with entries := entries + 1 })

def entry (w : StreamWriter) (key : String) (e : Encoding) : Except Error Unit × StreamWriter :=
  if w.shape ≠ .object then (.error (.unsupported "entry() on an array stream"), w)
  else
    complete w.buffer.size w.entries ((w.separate.put (Json.printString key)).put ":") e

def push (w : StreamWriter) (e : Encoding) : Except Error Unit × StreamWriter :=
  if w.shape ≠ .array then (.error (.unsupported "push() on an object stream"), w)
  else complete w.buffer.size w.entries w.separate e

def reset (w : StreamWriter) : StreamWriter :=
  { w.truncate w.headerSize with entries := 0 }

/-- The whole text, with the content and the envelope closed. -/
def finish (w : StreamWriter) : String :=
  w.text ++ (match w.shape with
    | .object => "\x7d\x7d"
    | .array => "]\x7d")

end StreamWriter

end WsGateway
