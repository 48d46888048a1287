import WsGateway.Json.Numeral
import WsGateway.Text.Octets

/-!
# Reading the parts of a JSON text

Readers take what is left of a text and give a value with the new rest, or a fault. Their
first argument bounds the repetitions inside them; the length of the whole text is always
enough.
-/

namespace WsGateway.Json

def isBlank (c : Char) : Bool :=
  c == ' ' || c == '\n' || c == '\t' || c == '\r'

def skipBlanks (s : List Char) : List Char :=
  s.dropWhile isBlank

def readWord : List Char → List Char → Except Fault (List Char)
  | [], s => .ok s
  | _ :: _, [] => .error (.here .endInValue [])
  | w :: ws, c :: s => if w = c then readWord ws s else .error (.next .expectedWord (c :: s))

/-! ## Strings -/

def readHex (s : List Char) : Except Fault (Nat × List Char) :=
  let fault : Fault :=
    if 4 ≤ Text.octetCount (s.take 4) then ⟨.invalidEscape, s, 4⟩ else .here .endInString []
  match s with
  | a :: b :: c :: d :: rest =>
    match Text.hexValue? a, Text.hexValue? b, Text.hexValue? c, Text.hexValue? d with
    | some a, some b, some c, some d => .ok (((a * 16 + b) * 16 + c) * 16 + d, rest)
    | _, _, _, _ => .error fault
  | _ => .error fault

/-- The character of an escape by number, after its letter. A number of the first half of a
surrogate pair is completed by a second escape. -/
def readUnicode (s : List Char) : Except Fault (Char × List Char) := do
  let (high, rest) ← readHex s
  if 0xDC00 ≤ high ∧ high < 0xE000 then .error (.here .loneSurrogate rest)
  else if 0xD800 ≤ high ∧ high < 0xDC00 then
    match rest with
    | [] => .error (.here .endInString [])
    | ['\\'] => .error (.here .endInString [])
    | '\\' :: 'u' :: rest =>
      let (low, rest) ← readHex rest
      if 0xDC00 ≤ low ∧ low < 0xE000 then
        .ok (Char.ofNat (0x10000 + (high - 0xD800) * 0x400 + (low - 0xDC00)), rest)
      else .error (.here .loneSurrogate rest)
    | '\\' :: rest => .error (.next .unfinishedEscape rest)
    | rest => .error (.next .unfinishedEscape rest)
  else .ok (Char.ofNat high, rest)

/-- The character that a letter after a backslash stands for. -/
def shortEscape? : Char → Option Char
  | '"' => some '"'
  | '\\' => some '\\'
  | '/' => some '/'
  | 'b' => some '\x08'
  | 'f' => some '\x0C'
  | 'n' => some '\n'
  | 'r' => some '\r'
  | 't' => some '\t'
  | _ => none

/-- The characters of a string up to its closing quote; `acc` holds those already read, latest
first. -/
def readCharsFrom : Nat → List Char → List Char → Except Fault (List Char × List Char)
  | 0, _, s => .error (.here .endInString s)
  | _ + 1, _, [] => .error (.here .endInString [])
  | n + 1, acc, c :: s =>
    if c = '"' then .ok (acc.reverse, s)
    else if c = '\\' then
      match s with
      | [] => .error (.here .endInString [])
      | 'u' :: s => do
        let (c, s) ← readUnicode s
        readCharsFrom n (c :: acc) s
      | e :: s' =>
        match shortEscape? e with
        | some c => readCharsFrom n (c :: acc) s'
        | none => .error (.next .invalidEscape s)
    else if c.toNat < 32 then .error (.next .controlCharacter (c :: s))
    else readCharsFrom n (c :: acc) s

def readString (limit : Nat) (s : List Char) : Except Fault (String × List Char) := do
  let (cs, rest) ← readCharsFrom (limit + 1) [] s
  pure (String.ofList cs, rest)

def readNumber (s : List Char) : Except Fault (Number × List Char) := do
  let (negative, digits) := match s with
    | '-' :: s => (true, s)
    | s => (false, s)
  let t ← Numeral.read .endInValue negative digits
  let n ← t.value
  pure (n, t.rest)

/-! ## Lists and objects -/

/-- Where a list or an object goes on: with an item, or behind its closing bracket. -/
inductive Step where
  | item (rest : List Char)
  | done (rest : List Char)

/-- The next element of a list that is read, or its end. -/
def nextElement (first : Bool) (s : List Char) : Except Fault Step :=
  match skipBlanks s with
  | [] => .error (.here .endInList [])
  | c :: s =>
    if c = ']' then .ok (.done s)
    else if first then .ok (.item (c :: s))
    else if c = ',' then
      match skipBlanks s with
      | [] => .error (.here .endInValue [])
      | c :: s => if c = ']' then .error (.next .trailingComma (c :: s)) else .ok (.item (c :: s))
    else .error (.next .expectedCommaOrBracket (c :: s))

/-- The next member of an object that is read, just behind the opening quote of its name, or
the object's end. -/
def nextMember (first : Bool) (s : List Char) : Except Fault Step :=
  match skipBlanks s with
  | [] => .error (.here .endInObject [])
  | c :: s =>
    if c = '\x7d' then .ok (.done s)
    else if first then
      if c = '"' then .ok (.item s) else .error (.next .keyNotString (c :: s))
    else if c = ',' then
      match skipBlanks s with
      | [] => .error (.here .endInValue [])
      | c :: s =>
        if c = '"' then .ok (.item s)
        else if c = '\x7d' then .error (.next .trailingComma (c :: s))
        else .error (.next .keyNotString (c :: s))
    else .error (.next .expectedCommaOrBrace (c :: s))

/-- What is left behind the colon between a name and its value. -/
def readColon (s : List Char) : Except Fault (List Char) :=
  match skipBlanks s with
  | [] => .error (.here .endInObject [])
  | c :: s => if c = ':' then .ok s else .error (.next .expectedColon (c :: s))

/-- The elements of a list, each read by `item`, up to the closing bracket. -/
def readElements {α : Type} (item : List Char → Except Fault (α × List Char)) :
    Nat → Bool → List Char → Except Fault (List α × List Char)
  | 0, _, s => .error (.here .endInList s)
  | n + 1, first, s => do
    match ← nextElement first s with
    | .done rest => pure ([], rest)
    | .item rest =>
      let (a, rest) ← item rest
      let (as, rest) ← readElements item n false rest
      pure (a :: as, rest)

/-- The members of an object, each value read by `item`, up to the closing brace. -/
def readMembers {α : Type} (limit : Nat) (item : List Char → Except Fault (α × List Char)) :
    Nat → Bool → List Char → Except Fault (List (String × α) × List Char)
  | 0, _, s => .error (.here .endInObject s)
  | n + 1, first, s => do
    match ← nextMember first s with
    | .done rest => pure ([], rest)
    | .item rest =>
      let (key, rest) ← readString limit rest
      let rest ← readColon rest
      let (a, rest) ← item rest
      let (as, rest) ← readMembers limit item n false rest
      pure ((key, a) :: as, rest)

/-- What is left behind an object that has no more members. -/
def endMembers (s : List Char) : Except Fault (List Char) :=
  match skipBlanks s with
  | [] => .error (.here .endInObject [])
  | c :: s =>
    if c = '\x7d' then .ok s
    else if c = ',' then .error (.next .trailingComma (c :: s))
    else .error (.next .trailingCharacters (c :: s))

/-! ## Values of the wrong kind -/

/-- The fault of a value that is not of the expected kind: a scalar is read whole, a list or an
object is left before its bracket. -/
def refuse {α : Type} (expected : String) (limit : Nat) (s : List Char) :
    Except Fault (α × List Char) :=
  let fault (seen : Seen) (rest : List Char) : Except Fault (α × List Char) :=
    .error (.here (.wrongType seen expected) rest)
  match skipBlanks s with
  | [] => .error (.here .endInValue [])
  | 'n' :: s => do fault .null (← readWord ['u', 'l', 'l'] s)
  | 't' :: s => do fault (.bool true) (← readWord ['r', 'u', 'e'] s)
  | 'f' :: s => do fault (.bool false) (← readWord ['a', 'l', 's', 'e'] s)
  | '"' :: s => do
    let (text, rest) ← readString limit s
    fault (.string text) rest
  | '[' :: s => fault .list ('[' :: s)
  | '\x7b' :: s => fault .object ('\x7b' :: s)
  | c :: s =>
    if c = '-' ∨ c.isDigit then do
      let (n, rest) ← readNumber (c :: s)
      fault (.number n) rest
    else .error (.next .expectedValue (c :: s))

/-- A string, where `expected` names what is wanted. -/
def readText (expected : String) (limit : Nat) (s : List Char) :
    Except Fault (String × List Char) :=
  match skipBlanks s with
  | '"' :: s => readString limit s
  | _ => refuse expected limit s

/-! ## Whole texts -/

def readEnd (s : List Char) : Except Fault Unit :=
  match skipBlanks s with
  | [] => .ok ()
  | c :: s => .error (.next .trailingCharacters (c :: s))

def readAll {α : Type} (reader : Nat → List Char → Except Fault (α × List Char))
    (text : List Char) : Except Fault α := do
  let (a, rest) ← reader text.length text
  readEnd rest
  pure a

end WsGateway.Json
