import WsGateway.Operation.Basic

/-!
# Built-in operations

`ping` answers, `echo` sends the payload back, `range` streams numbers, and `heartbeat` takes
subscriptions to the beats that the gateway publishes.
-/

namespace WsGateway

open Json (Value)

namespace Ping

def op : String := "ping"

def handler : OpHandler := fun call =>
  match call.request.kind with
  | .request | .multiRequest => call.answer (.text "pong")
  | _ => call.unsupported op

end Ping

namespace Echo

def op : String := "echo"

def answerEach (call : OpCall) : List Value → OpAction Unit
  | [] => pure ()
  | v :: rest => do
    call.answer (.value v)
    answerEach call rest

/-- Answers with the payload; a list gets an answer for each element if several answers were
asked for. -/
def handler : OpHandler := fun call => do
  let v ← call.payload Json.Decoder.value
  match call.request.kind, v with
  | .multiRequest, .array items => answerEach call items
  | .request, v | .multiRequest, v => call.answer (.value v)
  | _, _ => call.unsupported op

end Echo

namespace Range

def op : String := "range"

def maxCount : Nat := 1000000

def typeName : String := "struct RangeReq"

def fieldName : String := "count"

/-- The payload written as an object: the only member, after `count` if that was read. -/
def readMembers (limit depth : Nat) :
    Nat → Bool → Option Int → List Char → Except Json.Fault (Int × List Char)
  | 0, _, _, s => .error (.here .endInObject s)
  | n + 1, first, count, s => do
    match ← Json.nextMember first s with
    | .done rest =>
      match count with
      | some count => pure (count, rest)
      | none => .error (.here (.missingField fieldName) rest)
    | .item rest =>
      let (key, rest) ← Json.readString limit rest
      if key ≠ fieldName then
        Json.fieldFault (.unknownField key ("`" ++ fieldName ++ "`")) '\x7d' rest
      else if count.isSome then Json.fieldFault (.duplicateField key) '\x7d' rest
      else
        let rest ← Json.readColon rest
        let (count, rest) ← Json.Decoder.uint64 limit depth rest
        readMembers limit depth n false (some count) rest

/-- The payload written as a list: the only element. -/
def readElement (limit depth : Nat) (s : List Char) :
    Except Json.Fault (Int × List Char) := do
  match ← Json.nextElement true s with
  | .done rest => .error (.here (.wrongLength 0 (typeName ++ " with 1 element")) rest)
  | .item rest =>
    let (count, rest) ← Json.Decoder.uint64 limit depth rest
    let rest ← Json.endFields rest
    pure (count, rest)

/-- How many numbers are asked for. -/
def decoder : Json.Decoder Int := fun limit depth s =>
  match Json.skipBlanks s with
  | '\x7b' :: s =>
    Json.Decoder.nested '\x7b'
      (fun depth s => readMembers limit depth (limit + 1) true none s) depth s
  | '[' :: s => Json.Decoder.nested '[' (fun depth s => readElement limit depth s) depth s
  | _ => Json.refuse typeName limit s

def number (n : Nat) : Content := .value (.ofUInt64 (UInt64.ofNat n))

/-- The numbers are pushed one after another; the handler stops where one is refused. -/
def pushAll (s : StreamingReply) : List Nat → Except Error StreamingReply
  | [] => .ok s
  | n :: rest =>
    match s.push (number n) with
    | (.ok _, s) => pushAll s rest
    | (.error e, _) => .error e

def handler : OpHandler := fun call => do
  let count ← call.payload decoder
  if count > maxCount then
    .fail (.badRequest ("range count must be <= " ++ toString maxCount))
  else
    let r ← call.reply
    let s ← OpAction.ofExcept (r.stream .array)
    let s ← OpAction.ofExcept (pushAll s (List.range count.toNat))
    let _ ← OpAction.onLinks s.finish

end Range

namespace Heartbeat

def op : String := "heartbeat"

def handler : OpHandler := fun call =>
  match call.request.kind with
  | .subscribe => call.answer (.text "subscribed")
  | .unsubscribe => call.answer (.text "unsubscribed")
  | _ => call.unsupported op

/-- The event of one beat: its number, and the time in milliseconds. -/
def beat (seq now : UInt64) : Content :=
  .value (.object [("seq", .ofUInt64 seq), ("ts", .ofUInt64 now)])

end Heartbeat

def builtinOperations : List (String × OpHandler) :=
  [(Ping.op, Ping.handler), (Echo.op, Echo.handler), (Range.op, Range.handler),
    (Heartbeat.op, Heartbeat.handler)]

end WsGateway
