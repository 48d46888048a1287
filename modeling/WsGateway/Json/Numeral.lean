import WsGateway.Json.Fault

/-!
# JSON numbers

A numeral is cut into its runs of digits first; its value is computed from them afterwards.
-/

namespace WsGateway.Json

def spanDigits (s : List Char) : List Char × List Char :=
  (s.takeWhile Char.isDigit, s.dropWhile Char.isDigit)

/-- The parts of a number as written. `rest` is the text after it. -/
structure Numeral where
  negative : Bool
  whole : List Char
  fraction : List Char
  exponent : Option (Bool × List Char)
  rest : List Char

namespace Numeral

/-- The exponent after its letter: an optional sign and at least one digit. `atEnd` is the
cause when the text ends. -/
def readExponent (atEnd : Cause) (s : List Char) : Except Fault ((Bool × List Char) × List Char) :=
  let (negative, s) := match s with
    | '+' :: s => (false, s)
    | '-' :: s => (true, s)
    | s => (false, s)
  match s with
  | [] => .error (.here atEnd [])
  | c :: _ =>
    if c.isDigit then
      let (digits, rest) := spanDigits s
      .ok ((negative, digits), rest)
    else .error (.next .invalidNumber s)

/-- The digits of a number before any point: no digit follows a zero. -/
def readWhole (atEnd : Cause) (s : List Char) : Except Fault (List Char × List Char) :=
  match s with
  | [] => .error (.here atEnd [])
  | c :: s' =>
    if c = '0' then
      match s' with
      | d :: _ => if d.isDigit then .error (.next .invalidNumber s') else .ok (['0'], s')
      | [] => .ok (['0'], [])
    else if c.isDigit then .ok (spanDigits s)
    else .error (.next .invalidNumber s)

/-- The digits behind the point, if there is one: at least one digit. -/
def readFraction (atEnd : Cause) (s : List Char) : Except Fault (List Char × List Char) :=
  match s with
  | '.' :: s =>
    match s with
    | [] => .error (.here atEnd [])
    | c :: _ => if c.isDigit then .ok (spanDigits s) else .error (.next .invalidNumber s)
  | s => .ok ([], s)

/-- A number after its sign. -/
def read (atEnd : Cause) (negative : Bool) (s : List Char) : Except Fault Numeral := do
  let (whole, s) ← readWhole atEnd s
  let (fraction, s) ← readFraction atEnd s
  match s with
  | c :: s' =>
    if c = 'e' ∨ c = 'E' then
      let (exponent, rest) ← readExponent atEnd s'
      pure ⟨negative, whole, fraction, some exponent, rest⟩
    else pure ⟨negative, whole, fraction, none, s⟩
  | [] => pure ⟨negative, whole, fraction, none, []⟩

/-- Digits taken into a number while it stays below `bound`, and the digits that are left. -/
def accumulate (bound : Nat) : Nat → List Char → Nat × List Char
  | n, [] => (n, [])
  | n, c :: cs =>
    let m := n * 10 + (c.toNat - '0'.toNat)
    if m < bound then accumulate bound m cs else (n, c :: cs)

/-- A magnitude divided by `10 ^ deficit`, in steps of `10 ^ 308`. -/
def divideDown (x : Binary64) (deficit : Nat) : Binary64 :=
  if deficit ≤ 308 then (x.div? (.powTen deficit)).getD .zero
  else if x.isZero then x
  else divideDown ((x.div? (.powTen 308)).getD .zero) (deficit - 308)
termination_by deficit

/-- `significand · 10 ^ exponent` as a floating-point number; `none` when it is too great. -/
def scaled? (significand : Nat) (exponent : Int) : Option Binary64 :=
  let x := (Binary64.ofQuotient? significand 1).getD .zero
  if exponent < 0 then some (divideDown x exponent.natAbs)
  else if exponent ≤ 308 then x.mul? (.powTen exponent.natAbs)
  else if x.isZero then some x
  else none

/-- A whole number with its sign as a JSON number; zero with a minus sign and what 64 bits do
not hold become floating-point numbers. -/
def wholeNumber (negative : Bool) (n : Nat) : Number :=
  let k : Int := if negative then -(n : Int) else n
  if h : (-9223372036854775808 ≤ k ∧ k < 18446744073709551616) ∧ ¬(negative = true ∧ n = 0) then
    .int k h.1
  else .float (((Binary64.ofQuotient? n 1).getD .zero).withSign negative)

/-- The value of a number as written. Digits past 64 bits do not count, except that those
before the point raise the exponent. -/
def value (t : Numeral) : Except Fault Number :=
  let (n, left) := accumulate 18446744073709551616 0 t.whole
  if left.isEmpty ∧ t.fraction.isEmpty ∧ t.exponent.isNone then
    .ok (wholeNumber t.negative n)
  else
    let (n, ignored) := accumulate 18446744073709551616 n t.fraction
    let start : Int := left.length - (t.fraction.length - ignored.length : Nat)
    let finish (exponent : Int) : Except Fault Number :=
      match scaled? n exponent with
      | some x => .ok (.float (x.withSign t.negative))
      | none => .error (.here .outOfRange t.rest)
    match t.exponent with
    | none => finish start
    | some (down, digits) =>
      let (e, excess) := accumulate 2147483648 0 digits
      match excess with
      | [] => finish (if down then start - e else start + e)
      | _ :: after =>
        if n ≠ 0 ∧ !down then .error (.here .outOfRange (after ++ t.rest))
        else .ok (.float (Binary64.zero.withSign t.negative))

end Numeral

end WsGateway.Json
