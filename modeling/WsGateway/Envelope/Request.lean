import WsGateway.Error
import WsGateway.Envelope.Content

/-!
# Requests

A request arrives as a JSON text. It is read in two passes: the first takes the four members
as they come, so that the second can still say to which request a malformed one belonged. The
payload stays text until a handler decodes it.
-/

namespace WsGateway

open Json (Value Fault Cause Decoder)

inductive RequestKind where
  /-- One answer. -/
  | request
  /-- Possibly several answers. -/
  | multiRequest
  /-- Events from now on. -/
  | subscribe
  /-- No more events. -/
  | unsubscribe
  deriving DecidableEq, Repr

namespace RequestKind

def code : RequestKind → String
  | .request => "req"
  | .multiRequest => "mreq"
  | .subscribe => "sub"
  | .unsubscribe => "xsub"

def name : RequestKind → String
  | .request => "Request"
  | .multiRequest => "MRequest"
  | .subscribe => "Subscribe"
  | .unsubscribe => "Unsubscribe"

def ofCode? (code : String) : Option RequestKind :=
  if code = "req" then some .request
  else if code = "mreq" then some .multiRequest
  else if code = "sub" then some .subscribe
  else if code = "xsub" then some .unsubscribe
  else none

theorem ofCode?_code (k : RequestKind) : ofCode? k.code = some k := by
  cases k <;> decide

end RequestKind

/-- The members of a request as first read: whether each was there, and what it held if that
was not null. -/
structure LooseRequest where
  id : Option (Option Value)
  op : Option (Option Value)
  kind : Option (Option Value)
  payload : Option (Option String)

namespace LooseRequest

def empty : LooseRequest := ⟨none, none, none, none⟩

/-- The type as error messages call it. -/
def typeName : String := "struct LooseEnvelope"

/-- A member that holds any value, and may hold null. -/
def member : Decoder (Option Value) := .option .value

/-- A member whose value is kept as text, and may be null. -/
def verbatim : Decoder (Option String) := .option .verbatim

/-- The members of an envelope written as an object, after those in `seen`. -/
def readMembers (limit depth : Nat) :
    Nat → Bool → LooseRequest → List Char → Except Fault (LooseRequest × List Char)
  | 0, _, _, s => .error (.here .endInObject s)
  | n + 1, first, seen, s => do
    match ← Json.nextMember first s with
    | .done rest => pure (seen, rest)
    | .item rest =>
      let (key, rest) ← Json.readString limit rest
      -- A repeat is refused by name, before the value is looked at. Other names may repeat.
      let repeated : Bool :=
        (key == "id" && seen.id.isSome) || (key == "op" && seen.op.isSome)
          || (key == "type" && seen.kind.isSome) || (key == "payload" && seen.payload.isSome)
      if repeated then Json.fieldFault (.duplicateField key) '\x7d' rest
      else
        let rest ← Json.readColon rest
        if key = "id" then
          let (v, rest) ← member limit depth rest
          readMembers limit depth n false { seen with id := some v } rest
        else if key = "op" then
          let (v, rest) ← member limit depth rest
          readMembers limit depth n false { seen with op := some v } rest
        else if key = "type" then
          let (v, rest) ← member limit depth rest
          readMembers limit depth n false { seen with kind := some v } rest
        else if key = "payload" then
          let (v, rest) ← verbatim limit depth rest
          readMembers limit depth n false { seen with payload := some v } rest
        else
          let rest ← Json.skipValue limit rest
          readMembers limit depth n false seen rest

/-- The next element of an envelope written as a list, if it has one. -/
def readElement {α : Type} (decoder : Decoder α) (limit depth : Nat) (first : Bool)
    (s : List Char) : Except Fault (Option α × List Char) := do
  match ← Json.nextElement first s with
  | .done _ => pure (none, s)
  | .item rest =>
    let (a, rest) ← decoder limit depth rest
    pure (some a, rest)

/-- The elements of an envelope written as a list: id, op, type and payload, of which those at
the end may be missing. -/
def readElements (limit depth : Nat) (s : List Char) :
    Except Fault (LooseRequest × List Char) := do
  let (id, s) ← readElement member limit depth true s
  let (op, s) ← readElement member limit depth id.isNone s
  let (kind, s) ← readElement member limit depth op.isNone s
  let (payload, s) ← readElement verbatim limit depth kind.isNone s
  let s ← Json.endFields s
  pure (⟨id, op, kind, payload⟩, s)

def read : Decoder LooseRequest := fun limit depth s =>
  match Json.skipBlanks s with
  | '\x7b' :: s =>
    Decoder.nested '\x7b' (fun depth s => readMembers limit depth (limit + 1) true empty s) depth s
  | '[' :: s => Decoder.nested '[' (fun depth s => readElements limit depth s) depth s
  | _ => Json.refuse typeName limit s

end LooseRequest

/-- A well-formed request. The payload is a JSON text. -/
structure Request where
  id : Int64
  op : String
  kind : RequestKind
  payload : Option String := none
  deriving DecidableEq

/-- A request that could not be read, with the id and the operation if those could. -/
structure RequestFailure where
  rerid : Int64
  op : Option String
  error : Error
  deriving DecidableEq

namespace Request

/-- The id of a request: zero when it is absent. -/
def readId (id : Option Value) : Except Error Int64 :=
  match id with
  | none | some .null => .ok 0
  | some (.number (.int n fits)) =>
    if -9223372036854775808 ≤ n ∧ n < 9223372036854775808 then .ok (Int64.ofInt n)
    else .error (.badRequest ("malformed id: " ++ Json.printNumber (.int n fits)))
  | some other => .error (.badRequest ("malformed id: " ++ other.print))

/-- The operation of a request: a text that is not empty. -/
def readOp (op : Option Value) : Option String :=
  match op with
  | some (.string s) => if s.isEmpty then none else some s
  | _ => none

/-- The kind of a request: one answer when it is absent. -/
def readKind (kind : Option Value) : Except Error RequestKind :=
  match kind with
  | none | some .null => .ok .request
  | some (.string code) =>
    match RequestKind.ofCode? code with
    | some kind => .ok kind
    | none => .error (.badRequest ("unknown request type: " ++ code))
  | some other => .error (.badRequest ("malformed request type: " ++ other.print))

/-- The request that the members make up, or what was readable of it. -/
def ofLoose (loose : LooseRequest) : Except RequestFailure Request :=
  let op := readOp loose.op.join
  match readId loose.id.join with
  | .error e => .error ⟨0, op, e⟩
  | .ok id =>
    match op with
    | none => .error ⟨id, none, .badRequest "missing op"⟩
    | some op =>
      match readKind loose.kind.join with
      | .error e => .error ⟨id, some op, e⟩
      | .ok kind => .ok ⟨id, op, kind, loose.payload.join⟩

/-- The request with a content as its payload, unless the content fails. -/
def withPayload (r : Request) (c : Content) : Except Error Request :=
  match c.encoding with
  | ⟨text, none⟩ => .ok { r with payload := some text }
  | ⟨_, some message⟩ => .error (.badRequest ("payload encode failed: " ++ message))

def parse (text : String) : Except RequestFailure Request :=
  match Json.decode LooseRequest.read text with
  | .error fault =>
    .error ⟨0, none, .badRequest ("invalid envelope json: " ++ fault.message text)⟩
  | .ok loose => ofLoose loose

/-- The text of the payload; an absent one reads as null. -/
def payloadText (r : Request) : String := r.payload.getD "null"

def decodePayload {α : Type} (r : Request) (decoder : Decoder α) : Except Error α :=
  match Json.decode decoder r.payloadText with
  | .ok a => .ok a
  | .error fault =>
    .error (.badRequest (r.op ++ " invalid payload: " ++ fault.message r.payloadText))

/-- The request as a JSON value; a payload that does not decode becomes null. -/
def toValue (r : Request) : Value :=
  let head := [("id", Value.ofInt64 r.id), ("op", .string r.op)]
  let payload := match r.payload with
    | none => []
    | some text => [("payload", (Value.parse text).toOption.getD .null)]
  .object (head ++ payload ++ [("type", .string r.kind.code)])

def encode (r : Request) : String := r.toValue.print

end Request

end WsGateway
