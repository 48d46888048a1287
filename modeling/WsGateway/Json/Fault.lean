import WsGateway.Json.Printer
import WsGateway.Text.Digits
import WsGateway.Text.Quoted
import WsGateway.Text.Split

/-!
# Faults in JSON texts

Why a text was refused, and where: a fault holds what is left of the text at the place, so
that line and column can be counted from the start.
-/

namespace WsGateway.Json

/-- What stood where something else was expected. -/
inductive Seen where
  | null
  | bool (b : Bool)
  | number (n : Number)
  | string (s : String)
  | list
  | object
  deriving DecidableEq

/-- Why a text was refused. -/
inductive Cause where
  | expectedValue
  | expectedWord
  | expectedColon
  | expectedCommaOrBrace
  | expectedCommaOrBracket
  | keyNotString
  | trailingComma
  | trailingCharacters
  | invalidNumber
  | outOfRange
  | invalidEscape
  | loneSurrogate
  | unfinishedEscape
  | controlCharacter
  | tooDeep
  | endInValue
  | endInString
  | endInList
  | endInObject
  | duplicateField (name : String)
  | missingField (name : String)
  | unknownField (name expected : String)
  | wrongType (seen : Seen) (expected : String)
  | wrongValue (seen : Seen) (expected : String)
  | wrongLength (count : Nat) (expected : String)
  /-- What is wrong with a text embedded as a string, with the place in that text. -/
  | embedded (message : String)
  deriving DecidableEq

/-- A refusal: its cause, what is left of the text there, and how many octets of that were
looked at beyond the place. -/
structure Fault where
  cause : Cause
  rest : List Char
  ahead : Nat
  deriving DecidableEq

namespace Fault

/-- A fault after everything that was read. -/
def here (cause : Cause) (rest : List Char) : Fault := ⟨cause, rest, 0⟩

/-- A fault at the next octet. -/
def next (cause : Cause) (rest : List Char) : Fault := ⟨cause, rest, 1⟩

end Fault

def Seen.text : Seen → String
  | .null => "null"
  | .bool true => "boolean `true`"
  | .bool false => "boolean `false`"
  | .number (.int n _) => "integer `" ++ toString n ++ "`"
  | .number (.float x) => "floating point `" ++ printFloat x ++ "`"
  | .string s => "string " ++ Text.quoted s
  | .list => "sequence"
  | .object => "map"

def Cause.text : Cause → String
  | .expectedValue => "expected value"
  | .expectedWord => "expected ident"
  | .expectedColon => "expected `:`"
  | .expectedCommaOrBrace => "expected `,` or `\x7d`"
  | .expectedCommaOrBracket => "expected `,` or `]`"
  | .keyNotString => "key must be a string"
  | .trailingComma => "trailing comma"
  | .trailingCharacters => "trailing characters"
  | .invalidNumber => "invalid number"
  | .outOfRange => "number out of range"
  | .invalidEscape => "invalid escape"
  | .loneSurrogate => "lone leading surrogate in hex escape"
  | .unfinishedEscape => "unexpected end of hex escape"
  | .controlCharacter => "control character (\\u0000-\\u001F) found while parsing a string"
  | .tooDeep => "recursion limit exceeded"
  | .endInValue => "EOF while parsing a value"
  | .endInString => "EOF while parsing a string"
  | .endInList => "EOF while parsing a list"
  | .endInObject => "EOF while parsing an object"
  | .duplicateField name => "duplicate field `" ++ name ++ "`"
  | .missingField name => "missing field `" ++ name ++ "`"
  | .unknownField name expected => "unknown field `" ++ name ++ "`, expected " ++ expected
  | .wrongType seen expected => "invalid type: " ++ seen.text ++ ", expected " ++ expected
  | .wrongValue seen expected => "invalid value: " ++ seen.text ++ ", expected " ++ expected
  | .wrongLength count expected => "invalid length " ++ toString count ++ ", expected " ++ expected
  | .embedded message => message

/-- A place in a text: the line, from one, and the octets read on it. -/
structure Place where
  line : Nat
  column : Nat
  deriving DecidableEq

namespace Place

def past (p : Place) (c : Char) : Place :=
  if c = '\n' then ⟨p.line + 1, 0⟩ else ⟨p.line, p.column + c.utf8Size⟩

/-- The place `count` octets further on in the text that follows. -/
def forward (p : Place) : Nat → List Char → Place
  | _, [] => p
  | count, c :: cs =>
    if count = 0 then p
    else if c = '\n' then forward ⟨p.line + 1, 0⟩ (count - 1) cs
    else if c.utf8Size < count then forward ⟨p.line, p.column + c.utf8Size⟩ (count - c.utf8Size) cs
    else ⟨p.line, p.column + count⟩

def text (p : Place) : String :=
  " at line " ++ toString p.line ++ " column " ++ toString p.column

end Place

/-- Where a fault stands in the text in which it was found. -/
def Fault.place (f : Fault) (text : List Char) : Place :=
  let read := text.take (text.length - f.rest.length)
  (read.foldl Place.past ⟨1, 0⟩).forward f.ahead f.rest

/-- The message of a fault found in a text: what is wrong and where. A fault in an embedded text
names its own place. -/
def Fault.message (f : Fault) (text : String) : String :=
  match f.cause with
  | .embedded message => message
  | cause => cause.text ++ (f.place text.toList).text

/-- A message that ends in a place, as its front and the place. -/
def splitPlace? (message : List Char) : Option (List Char × Place) := do
  let (front, column) ← Text.trailingNumber? message
  let front ← Text.before? " column ".toList front
  let (front, line) ← Text.trailingNumber? front
  let front ← Text.before? " at line ".toList front
  pure (front, ⟨line, column⟩)

/-- A message that someone else worded, as it is passed on: a place at its end is written anew,
and a place on line zero is none. -/
def passedOn (message : String) : String :=
  match splitPlace? message.toList with
  | some (front, p) =>
    if p.line = 0 then String.ofList front else String.ofList front ++ p.text
  | none => message

end WsGateway.Json
