import WsGateway.Text.Octets

/-!
# SHA-1

The digest of an octet string: padding to whole blocks of 64 octets, a schedule of 80 words
for each block, and 80 rounds on five words.
-/

namespace WsGateway.Crypto

open WsGateway.Text (Octets)

/-- The five words that the rounds turn. -/
structure Sha1State where
  a : UInt32
  b : UInt32
  c : UInt32
  d : UInt32
  e : UInt32

namespace Sha1State

def start : Sha1State :=
  ⟨0x67452301, 0xEFCDAB89, 0x98BADCFE, 0x10325476, 0xC3D2E1F0⟩

def add (s t : Sha1State) : Sha1State :=
  ⟨s.a + t.a, s.b + t.b, s.c + t.c, s.d + t.d, s.e + t.e⟩

end Sha1State

def rotateLeft (w : UInt32) (n : UInt32) : UInt32 :=
  (w <<< n) ||| (w >>> (32 - n))

def bigEndian (size n : Nat) : Octets :=
  (List.range size).reverse.map fun i => UInt8.ofNat (n / Nat.pow 256 i)

/-- The message with a one bit, zeros, and its length in bits: a whole number of blocks. -/
def padded (message : Octets) : Octets :=
  let zeros := (119 - message.length % 64) % 64
  message ++ 0x80 :: List.replicate zeros 0 ++ bigEndian 8 (message.length * 8)

def blockWords : Octets → List UInt32
  | a :: b :: c :: d :: rest =>
    UInt32.ofNat (((a.toNat * 256 + b.toNat) * 256 + c.toNat) * 256 + d.toNat) :: blockWords rest
  | _ => []

/-- One more word of the schedule, whose words are held latest first. -/
def extendSchedule (words : List UInt32) : List UInt32 :=
  let at_ (i : Nat) := words.getD i 0
  rotateLeft (at_ 2 ^^^ at_ 7 ^^^ at_ 13 ^^^ at_ 15) 1 :: words

def schedule (block : Octets) : List UInt32 :=
  ((List.range 64).foldl (fun words _ => extendSchedule words) (blockWords block).reverse).reverse

def sha1Round (s : Sha1State) (i : Nat) (w : UInt32) : Sha1State :=
  let (f, k) : UInt32 × UInt32 :=
    if i < 20 then ((s.b &&& s.c) ||| ((~~~ s.b) &&& s.d), 0x5A827999)
    else if i < 40 then (s.b ^^^ s.c ^^^ s.d, 0x6ED9EBA1)
    else if i < 60 then ((s.b &&& s.c) ||| (s.b &&& s.d) ||| (s.c &&& s.d), 0x8F1BBCDC)
    else (s.b ^^^ s.c ^^^ s.d, 0xCA62C1D6)
  ⟨rotateLeft s.a 5 + f + s.e + k + w, s.a, rotateLeft s.b 30, s.c, s.d⟩

def sha1Block (s : Sha1State) (block : Octets) : Sha1State :=
  s.add ((schedule block).zipIdx.foldl (fun s (w, i) => sha1Round s i w) s)

/-- The state after the first `n` blocks of the octets. -/
def sha1Blocks : Nat → Sha1State → Octets → Sha1State
  | 0, s, _ => s
  | n + 1, s, bytes => sha1Blocks n (sha1Block s (bytes.take 64)) (bytes.drop 64)

/-- The digest of a message: 20 octets. -/
def sha1 (message : Octets) : Octets :=
  let bytes := padded message
  let s := sha1Blocks (bytes.length / 64) .start bytes
  [s.a, s.b, s.c, s.d, s.e].flatMap fun w => bigEndian 4 w.toNat

end WsGateway.Crypto
