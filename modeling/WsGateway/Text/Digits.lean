/-!
# Decimal numbers

Reading an unsigned number from its decimal digits, with an optional plus sign and an upper
bound.
-/

namespace WsGateway.Text

/-- The value of a run of decimal digits read after the number `acc`; `none` when another
character occurs. -/
def digitsFrom (acc : Nat) : List Char → Option Nat
  | [] => some acc
  | c :: cs => if c.isDigit then digitsFrom (acc * 10 + (c.toNat - '0'.toNat)) cs else none

/-- The number that at least one decimal digit and nothing else spells. -/
def digits? : List Char → Option Nat
  | [] => none
  | cs => digitsFrom 0 cs

/-- The number below `2 ^ 64` that the digits at the end of a text spell, and what stands before
them. -/
def trailingNumber? (s : List Char) : Option (List Char × Nat) := do
  let digits := (s.reverse.takeWhile Char.isDigit).reverse
  let n ← (digits? digits).filter (· < 18446744073709551616)
  pure (s.take (s.length - digits.length), n)

/-- An unsigned number below `bound`: digits after at most one plus sign. -/
def number? (bound : Nat) (s : String) : Option Nat :=
  let body := match s.toList with
    | '+' :: cs => cs
    | cs => cs
  (digits? body).filter (· < bound)

def uint64? (s : String) : Option UInt64 :=
  (number? 18446744073709551616 s).map UInt64.ofNat

end WsGateway.Text
