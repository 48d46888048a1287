import WsGateway.Text.Octets

/-!
# Socket addresses

An address of a host with a port: four octets, or eight groups of sixteen bits with an optional
scope. Reading takes the whole text; writing gives the shortest usual form.
-/

namespace WsGateway.Net

inductive Address where
  | v4 (octets : List Nat) (port : Nat)
  | v6 (groups : List Nat) (scope port : Nat)
  deriving DecidableEq, Repr

/-- A number at the front of a text and the rest: digits in `base`, at most `maxDigits` of them
if that is given, with a value below `bound`. -/
def readNumber (base : Nat) (maxDigits : Option Nat) (padding : Bool) (bound : Nat)
    (s : List Char) : Option (Nat × List Char) :=
  let digits := (s.takeWhile fun c => (Text.hexValue? c).any (· < base))
  let n := digits.foldl (fun n c => n * base + (Text.hexValue? c).getD 0) 0
  if digits.isEmpty || maxDigits.any (· < digits.length) then none
  else if !padding && digits.head? = some '0' && digits.length > 1 then none
  else if n < bound then some (n, s.drop digits.length)
  else none

def readChar (c : Char) : List Char → Option (List Char)
  | x :: s => if x = c then some s else none
  | [] => none

def readOctets (s : List Char) : Option (List Nat × List Char) := do
  let octet := readNumber 10 (some 3) false 256
  let (a, s) ← octet s
  let (b, s) ← octet (← readChar '.' s)
  let (c, s) ← octet (← readChar '.' s)
  let (d, s) ← octet (← readChar '.' s)
  pure ([a, b, c, d], s)

/-- Up to `room` groups with colons between them, of which `read` have been read; the last two
may be written as four octets, and the answer tells whether they were. -/
def readGroups : Nat → Nat → List Char → List Nat × Bool × List Char
  | 0, _, s => ([], false, s)
  | room + 1, read, s =>
    let inner := if read = 0 then some s else readChar ':' s
    let octets := if room = 0 then none else inner.bind readOctets
    match octets with
    | some ([a, b, c, d], rest) => ([a * 256 + b, c * 256 + d], true, rest)
    | _ =>
      match inner.bind (readNumber 16 (some 4) true 65536) with
      | none => ([], false, s)
      | some (group, rest) =>
        let (groups, mixed, rest) := readGroups room (read + 1) rest
        (group :: groups, mixed, rest)

/-- Eight groups, or fewer with two colons for the zeros left out. -/
def readAllGroups (s : List Char) : Option (List Nat × List Char) :=
  let (front, mixed, rest) := readGroups 8 0 s
  if front.length = 8 then some (front, rest)
  else if mixed then none
  else do
    let rest ← readChar ':' rest
    let rest ← readChar ':' rest
    let (back, _, rest) := readGroups (7 - front.length) 0 rest
    pure (front ++ List.replicate (8 - front.length - back.length) 0 ++ back, rest)

def readPort (s : List Char) : Option (Nat × List Char) := do
  readNumber 10 none true 65536 (← readChar ':' s)

/-- The scope behind a percent sign; zero if there is none. -/
def readScope (s : List Char) : Nat × List Char :=
  match (readChar '%' s).bind (readNumber 10 none true 4294967296) with
  | some (scope, rest) => (scope, rest)
  | none => (0, s)

def readV6 (s : List Char) : Option (Address × List Char) := do
  let (groups, s) ← readAllGroups (← readChar '[' s)
  let (scope, s) := readScope s
  let (port, s) ← readPort (← readChar ']' s)
  pure (.v6 groups scope port, s)

def readV4 (s : List Char) : Option (Address × List Char) := do
  let (octets, s) ← readOctets s
  let (port, s) ← readPort s
  pure (.v4 octets port, s)

namespace Address

def parse? (text : String) : Option Address := do
  let (a, rest) ← (readV4 text.toList).orElse fun _ => readV6 text.toList
  if rest.isEmpty then pure a else none

def syntaxMessage : String := "invalid socket address syntax"

def octetText (octets : List Nat) : String :=
  String.intercalate "." (octets.map toString)

/-- Groups in base sixteen with colons between them. -/
def groupText (groups : List Nat) : String :=
  String.intercalate ":" (groups.map fun g => String.ofList (Nat.toDigits 16 g))

/-- The first of the longest runs of zeros from the index on: where it starts and how long it
is. -/
def longestZeros : Nat → List Nat → Nat × Nat
  | _, [] => (0, 0)
  | index, g :: rest =>
    let here := ((g :: rest).takeWhile (· = 0)).length
    let (start, size) := longestZeros (index + 1) rest
    if here ≥ size && here > 0 then (index, here) else (start, size)

def v6Text (groups : List Nat) : String :=
  match groups with
  | [0, 0, 0, 0, 0, 0xFFFF, a, b] =>
    "::ffff:" ++ octetText [a / 256, a % 256, b / 256, b % 256]
  | _ =>
    let (start, size) := longestZeros 0 groups
    if size > 1 then groupText (groups.take start) ++ "::" ++ groupText (groups.drop (start + size))
    else groupText groups

def print : Address → String
  | .v4 octets port => octetText octets ++ ":" ++ toString port
  | .v6 groups scope port =>
    let scopeText := if scope = 0 then "" else "%" ++ toString scope
    "[" ++ v6Text groups ++ scopeText ++ "]:" ++ toString port

end Address

end WsGateway.Net
