import WsGateway.Binary64.Basic

/-!
# Shortest decimals

The decimal with the fewest digits that reads back as a given number, and of those the one
nearest to it. The search goes through grids of 1, 2, … 17 digits and tests the two
neighbours of the number on each grid in exact arithmetic.
-/

namespace WsGateway

/-- A decimal number: `digits · 10 ^ exponent`. -/
structure Decimal where
  digits : Nat
  exponent : Int
  deriving DecidableEq, Repr, Inhabited

namespace Decimal

def num (d : Decimal) : Nat := d.digits * Nat.pow 10 d.exponent.toNat

def den (d : Decimal) : Nat := Nat.pow 10 (-d.exponent).toNat

/-- The number of the binary format nearest to the decimal. -/
def toBinary64? (d : Decimal) : Option Binary64 :=
  Binary64.ofQuotient? d.num d.den

/-- The decimal without zeros at the end of its digits. The first argument bounds the number of
zeros removed. -/
def stripZeros : Nat → Decimal → Decimal
  | 0, d => d
  | n + 1, d =>
    if d.digits ≠ 0 ∧ d.digits % 10 = 0 then
      stripZeros n ⟨d.digits / 10, d.exponent + 1⟩
    else d

def digitText (d : Decimal) : String := toString d.digits

end Decimal

namespace Binary64

/-- How many more powers of ten it takes until `num` reaches `den`. The first argument bounds
the answer. -/
def tensBelow : Nat → Nat → Nat → Nat
  | 0, _, _ => 0
  | n + 1, num, den => if den ≤ num then 0 else tensBelow n (num * 10) den + 1

/-- The exponent of the greatest power of ten that is not above `num / den`. -/
def decimalExponent (num den : Nat) : Int :=
  if den ≤ num then ((Nat.toDigits 10 (num / den)).length : Int) - 1
  else -(tensBelow 400 num den : Int)

/-- The neighbours of `num / den` on the grid of multiples of `10 ^ exponent`, the nearer one
first; of two equally near ones the even one first. -/
def gridNeighbours (num den : Nat) (exponent : Int) : List Decimal :=
  let n := num * Nat.pow 10 (-exponent).toNat
  let d := den * Nat.pow 10 exponent.toNat
  let low := n / d
  let r := n % d
  if r = 0 then [⟨low, exponent⟩]
  else if 2 * r < d ∨ (2 * r = d ∧ low % 2 = 0) then [⟨low, exponent⟩, ⟨low + 1, exponent⟩]
  else [⟨low + 1, exponent⟩, ⟨low, exponent⟩]

/-- The first decimal that reads back as the magnitude of `x`, on grids of growing fineness. -/
def searchGrids (x : Binary64) (top : Int) : Nat → Nat → Decimal
  | 0, _ => ⟨x.num, 0⟩
  | n + 1, count =>
    let hits := (gridNeighbours x.num den (top - count)).filter fun d =>
      d.digits ≠ 0 ∧ d.toBinary64? = some (x.withSign false)
    match hits with
    | d :: _ => d
    | [] => searchGrids x top n (count + 1)

/-- The shortest decimal that reads back as the magnitude of `x`. -/
def shortest (x : Binary64) : Decimal :=
  if x.isZero then ⟨0, 0⟩
  else (searchGrids x (decimalExponent x.num den) 17 0).stripZeros 20

/-- The positional decimal text of a magnitude, with a point only where there are places behind
it. -/
def positional (d : Decimal) : String :=
  let text := d.digitText
  let point : Int := text.length + d.exponent
  if 0 ≤ d.exponent then
    text ++ String.ofList (List.replicate d.exponent.toNat '0')
  else if 0 < point then
    String.ofList (text.toList.take point.toNat) ++ "." ++
      String.ofList (text.toList.drop point.toNat)
  else "0." ++ String.ofList (List.replicate (-point).toNat '0') ++ text

/-- The number in positional notation with at least one place behind the point. -/
def plainText (x : Binary64) : String :=
  let text := positional x.shortest
  let sign := if x.negative then "-" else ""
  sign ++ (if text.toList.contains '.' then text else text ++ ".0")

end Binary64

end WsGateway
