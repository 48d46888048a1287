/-!
# Octets

Lists of octets: their hexadecimal spelling, the octets of a text, and reading octets as
UTF-8 with a replacement for what is not.
-/

namespace WsGateway.Text

abbrev Octets := List UInt8

def octets (s : String) : Octets :=
  s.toUTF8.toList

def octetCount (s : List Char) : Nat :=
  s.foldr (fun c n => c.utf8Size + n) 0

/-- One octet for each character of a text with characters below U+0100. -/
def latin (s : String) : Octets := s.toList.map fun c => UInt8.ofNat c.toNat

def ofLatin (bytes : Octets) : String := String.ofList (bytes.map fun b => Char.ofNat b.toNat)

def hexDigit (n : Nat) : Char :=
  if n < 10 then Char.ofNat ('0'.toNat + n) else Char.ofNat ('a'.toNat + (n - 10))

def toHex (bytes : Octets) : String :=
  String.ofList (bytes.flatMap fun b => [hexDigit (b.toNat / 16), hexDigit (b.toNat % 16)])

def hexValue? (c : Char) : Option Nat :=
  if '0' ≤ c ∧ c ≤ '9' then some (c.toNat - '0'.toNat)
  else if 'a' ≤ c ∧ c ≤ 'f' then some (c.toNat - 'a'.toNat + 10)
  else if 'A' ≤ c ∧ c ≤ 'F' then some (c.toNat - 'A'.toNat + 10)
  else none

def ofHex? : List Char → Option Octets
  | [] => some []
  | [_] => none
  | a :: b :: cs => do
    let high ← hexValue? a
    let low ← hexValue? b
    let rest ← ofHex? cs
    pure (UInt8.ofNat (high * 16 + low) :: rest)

def isContinuation (b : UInt8) : Bool :=
  0x80 ≤ b && b < 0xC0

/-- The first character of the octets, if they begin with a well-formed one, and how many
octets it takes. -/
def leadingChar? : Octets → Option (Char × Nat)
  | [] => none
  | a :: rest =>
    let value (bs : List UInt8) (start : Nat) : Nat :=
      bs.foldl (fun n b => n * 64 + (b.toNat - 0x80)) start
    if a < 0x80 then some (Char.ofNat a.toNat, 1)
    else
      let (size, low, start) :=
        if 0xC2 ≤ a && a < 0xE0 then (1, 0x80, a.toNat - 0xC0)
        else if 0xE0 ≤ a && a < 0xF0 then (2, 0x800, a.toNat - 0xE0)
        else if 0xF0 ≤ a && a < 0xF5 then (3, 0x10000, a.toNat - 0xF0)
        else (0, 0, 0)
      let tail := rest.take size
      let n := value tail start
      if size = 0 || tail.length < size || !tail.all isContinuation then none
      else if n < low || 0x10FFFF < n || (0xD800 ≤ n && n < 0xE000) then none
      else some (Char.ofNat n, size + 1)

/-- How many octets one replacement character stands for at an ill-formed place: the longest
beginning of a well-formed character, and at least one. -/
def illFormedSize : Octets → Nat
  | [] => 1
  | a :: rest =>
    let second (b : UInt8) : Bool :=
      isContinuation b &&
        !(a == 0xE0 && b < 0xA0) && !(a == 0xED && 0xA0 ≤ b) &&
        !(a == 0xF0 && b < 0x90) && !(a == 0xF4 && 0x90 ≤ b)
    let size :=
      if 0xE0 ≤ a && a < 0xF0 then 1
      else if 0xF0 ≤ a && a < 0xF5 then 2
      else 0
    match rest with
    | [] => 1
    | b :: more =>
      if size = 0 || !second b then 1
      else if size = 2 && (more.head?.map isContinuation).getD false then 3
      else 2

/-- The text of octets read as UTF-8; each ill-formed place gives U+FFFD. The first argument
bounds the number of characters. -/
def lossyFrom : Nat → Octets → List Char
  | 0, _ => []
  | _, [] => []
  | n + 1, bytes =>
    match leadingChar? bytes with
    | some (c, size) => c :: lossyFrom n (bytes.drop size)
    | none => '\uFFFD' :: lossyFrom n (bytes.drop (illFormedSize bytes))

/-- The text of octets read as UTF-8, with U+FFFD for what is ill-formed. -/
def lossyText (bytes : Octets) : String :=
  String.ofList (lossyFrom bytes.length bytes)

end WsGateway.Text
