/-!
# Binary floating-point numbers of 64 bits

Finite numbers of the 64-bit binary format, held exactly: a number is a significand times a
power of two. Every operation computes the exact quotient first and rounds it once, to the
nearest number of the format and to the even significand when two are equally near.
-/

namespace WsGateway

/-- A finite number of the format: `significand · 2 ^ scale` times `2 ^ -1074`, with a sign
that zero has as well. Numbers made by rounding have a significand below `2 ^ 53`, and one of
at least `2 ^ 52` unless the scale is zero. -/
structure Binary64 where
  negative : Bool
  significand : Nat
  scale : Nat
  deriving DecidableEq, Repr, Inhabited

namespace Binary64

/-- The quotient rounded to the nearest whole number, a half to the even neighbour. -/
def roundDiv (num den : Nat) : Nat :=
  let q := num / den
  let r := num % den
  if 2 * r > den ∨ (2 * r = den ∧ q % 2 = 1) then q + 1 else q

/-- The number of bits of a number; zero has none. -/
def bitLength (n : Nat) : Nat :=
  if n = 0 then 0 else n.log2 + 1

/-- The non-negative number of the format nearest to `num / den`; `none` when that lies past
the greatest one. -/
def ofQuotient? (num den : Nat) : Option Binary64 :=
  let num := num * Nat.pow 2 1074
  let scale := bitLength (num / den) - 53
  let m := roundDiv num (den * Nat.pow 2 scale)
  let x : Binary64 :=
    if m = Nat.pow 2 53 then ⟨false, Nat.pow 2 52, scale + 1⟩ else ⟨false, m, scale⟩
  if x.scale ≤ 2045 then some x else none

def zero : Binary64 := ⟨false, 0, 0⟩

def isZero (x : Binary64) : Bool := x.significand == 0

def withSign (x : Binary64) (negative : Bool) : Binary64 :=
  { x with negative := negative }

/-- The magnitude as a quotient of whole numbers. -/
def num (x : Binary64) : Nat := x.significand * Nat.pow 2 x.scale

/-- The denominator that all magnitudes share. -/
def den : Nat := Nat.pow 2 1074

def mul? (x y : Binary64) : Option Binary64 :=
  ofQuotient? (x.num * y.num) (den * den)

/-- The quotient of two magnitudes; the divisor is not zero. -/
def div? (x y : Binary64) : Option Binary64 :=
  ofQuotient? x.num y.num

/-- The power of ten with an exponent of at most 308. -/
def powTen (k : Nat) : Binary64 :=
  (ofQuotient? (Nat.pow 10 k) 1).getD zero

end Binary64

end WsGateway
