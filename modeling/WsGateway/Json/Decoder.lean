import WsGateway.Json.Parse
import WsGateway.Json.Skip

/-!
# Decoding JSON into other types

Readers for the types that payloads and envelopes are made of. A scalar of the wrong kind is
read whole and then refused; a list or an object is refused before its bracket. Faults about
the fields of a record stand behind the record's closing bracket if that comes next.
-/

namespace WsGateway.Json

/-- A reader of one type. It is given a bound on repetitions, like every reader, and how deep
lists and objects may still be nested. -/
abbrev Decoder (α : Type) := Nat → Nat → List Char → Except Fault (α × List Char)

def decode {α : Type} (decoder : Decoder α) (text : String) : Except Fault α :=
  readAll (fun limit s => decoder limit maxDepth s) text.toList

namespace Decoder

def value : Decoder Value := readValue

/-- The text of a value as it stands. -/
def verbatim : Decoder String := fun limit _ s => readVerbatim limit s

def unit : Decoder Unit := fun limit _ s =>
  match skipBlanks s with
  | 'n' :: s => do
    let s ← readWord ['u', 'l', 'l'] s
    pure ((), s)
  | _ => refuse "unit" limit s

def bool : Decoder Bool := fun limit _ s =>
  match skipBlanks s with
  | 't' :: s => do
    let s ← readWord ['r', 'u', 'e'] s
    pure (true, s)
  | 'f' :: s => do
    let s ← readWord ['a', 'l', 's', 'e'] s
    pure (false, s)
  | _ => refuse "a boolean" limit s

def string : Decoder String := fun limit _ s => readText "a string" limit s

/-- A whole number of which `low ≤ n < high`; `expected` names the type. -/
def integer (expected : String) (low high : Int) : Decoder Int := fun limit _ s =>
  match skipBlanks s with
  | c :: s =>
    if c = '-' ∨ c.isDigit then do
      let (n, rest) ← readNumber (c :: s)
      match n with
      | .int k _ =>
        if low ≤ k ∧ k < high then pure (k, rest)
        else .error (.here (.wrongValue (.number n) expected) rest)
      | .float _ => .error (.here (.wrongType (.number n) expected) rest)
    else refuse expected limit (c :: s)
  | [] => refuse expected limit []

def uint32 : Decoder Int := integer "u32" 0 4294967296

def uint64 : Decoder Int := integer "u64" 0 18446744073709551616

def int64 : Decoder Int := integer "i64" (-9223372036854775808) 9223372036854775808

/-- A value that may be missing: the word for nothing, or what `decoder` reads. -/
def option {α : Type} (decoder : Decoder α) : Decoder (Option α) := fun limit depth s =>
  match skipBlanks s with
  | 'n' :: s => do
    let s ← readWord ['u', 'l', 'l'] s
    pure (none, s)
  | s => do
    let (a, s) ← decoder limit depth s
    pure (some a, s)

/-- A list or an object behind its opening bracket, read one level deeper; it is refused if the
nesting would become too deep. -/
def nested {α : Type} (opening : Char) (inside : Nat → List Char → Except Fault (α × List Char)) :
    Nat → List Char → Except Fault (α × List Char)
  | 0, s => .error (.next .tooDeep (opening :: s))
  | depth + 1, s => inside depth s

def list {α : Type} (decoder : Decoder α) : Decoder (List α) := fun limit depth s =>
  match skipBlanks s with
  | '[' :: s =>
    nested '[' (fun depth s => readElements (decoder limit depth) (limit + 1) true s) depth s
  | _ => refuse "a sequence" limit s

def members {α : Type} (decoder : Decoder α) : Decoder (List (String × α)) := fun limit depth s =>
  match skipBlanks s with
  | '\x7b' :: s =>
    let inside := fun depth s => readMembers limit (decoder limit depth) (limit + 1) true s
    nested '\x7b' inside depth s
  | _ => refuse "a map" limit s

end Decoder

/-- What is left behind the closing bracket of a record, if that comes next. -/
def skipClosing (closing : Char) (s : List Char) : List Char :=
  match skipBlanks s with
  | [] => []
  | c :: s => if c = closing then s else c :: s

/-- A fault about a field of a record whose text goes on with `s`. -/
def fieldFault {α : Type} (cause : Cause) (closing : Char) (s : List Char) : Except Fault α :=
  .error (.here cause (skipClosing closing s))

/-- The end of a list of fields that has as many elements as the record has fields. -/
def endFields (s : List Char) : Except Fault (List Char) :=
  match skipBlanks s with
  | [] => .error (.here .endInList [])
  | c :: s =>
    if c = ']' then .ok s
    else if c = ',' then
      match skipBlanks s with
      | [] => .error (.here .trailingCharacters [])
      | c :: s =>
        if c = ']' then .error (.next .trailingComma (c :: s))
        else .error (.next .trailingCharacters (c :: s))
    else .error (.next .trailingCharacters (c :: s))

end WsGateway.Json
