import WsGateway.Binary64.Shortest
import WsGateway.Text.Quoted
import WsGateway.Yaml.Node

/-!
# What YAML scalars mean

A plain scalar is nothing, a truth value, a number or a text, by how it is spelled; a scalar in
quotes is a text. Tags of the core schema force a reading.
-/

namespace WsGateway.Yaml

inductive Meaning where
  | null
  | bool (b : Bool)
  /-- A whole number of 64 bits. -/
  | integer (n : Int)
  /-- A whole number of 128 bits. -/
  | wide (n : Int)
  | float (x : Binary64)
  /-- An infinite number, or none. -/
  | special (name : String)
  | text (s : String)

def Meaning.describe : Meaning → String
  | .null => "unit value"
  | .bool true => "boolean `true`"
  | .bool false => "boolean `false`"
  | .integer n => "integer `" ++ toString n ++ "`"
  | .wide n => "integer `" ++ toString n ++ "` as " ++ (if n < 0 then "i128" else "u128")
  | .float x => "floating point `" ++ x.plainText ++ "`"
  | .special name => "floating point `" ++ name ++ "`"
  | .text s => "string " ++ Text.quoted s

def isNull (s : String) : Bool :=
  s = "null" || s = "Null" || s = "NULL" || s = "~"

def bool? (s : String) : Option Bool :=
  if s = "true" || s = "True" || s = "TRUE" then some true
  else if s = "false" || s = "False" || s = "FALSE" then some false
  else none

/-- A run of digits that starts with zeros it does not need; it is a text, no number. -/
def isPaddedNumber (cs : List Char) : Bool :=
  let body := match cs with
    | '-' :: rest => rest
    | '+' :: rest => rest
    | cs => cs
  match body with
  | '0' :: d :: rest => (d :: rest).all Char.isDigit
  | _ => false

def digit? (base : Nat) (c : Char) : Option Nat :=
  (Text.hexValue? c).filter (· < base)

def natural? (base : Nat) (cs : List Char) : Option Nat :=
  if cs.isEmpty then none
  else cs.foldlM (fun n c => (digit? base c).map (n * base + ·)) 0

/-- The magnitude of a number without its sign, in the base that it starts with. `padded` tells
whether it has zeros in front. -/
def magnitude? (padded : Bool) : List Char → Option Nat
  | '0' :: 'x' :: cs => natural? 16 cs
  | '0' :: 'o' :: cs => natural? 8 cs
  | '0' :: 'b' :: cs => natural? 2 cs
  | cs => if padded then none else natural? 10 cs

/-- The whole number that a scalar spells, if it does: whether a minus sign stands before it, and
its magnitude. -/
def whole? (s : String) : Option (Bool × Nat) :=
  let cs := s.toList
  let padded := isPaddedNumber cs
  match cs with
  | '-' :: rest => (magnitude? padded rest).map (true, ·)
  | '+' :: rest => (magnitude? padded rest).map (false, ·)
  | rest => (magnitude? padded rest).map (false, ·)

/-- The unsigned number of 64 bits that a scalar spells without a minus sign. -/
def uint64? (s : String) : Option Nat :=
  match whole? s with
  | some (false, n) => if n < 18446744073709551616 then some n else none
  | _ => none

/-- The whole number of at most 128 bits that a scalar spells. -/
def wholeMeaning? (s : String) : Option Meaning :=
  match whole? s with
  | none => none
  | some (negative, n) =>
    if negative then
      if n ≤ 9223372036854775808 then some (.integer (-(n : Int)))
      else if n ≤ 170141183460469231731687303715884105728 then some (.wide (-(n : Int)))
      else none
    else if n < 18446744073709551616 then some (.integer n)
    else if n < 340282366920938463463374607431768211456 then some (.wide n)
    else none

/-- The finite floating-point number that a scalar spells: digits with at most one point among
them, and an exponent. -/
def finite? (cs : List Char) : Option Binary64 := do
  let (negative, cs) := match cs with
    | '-' :: rest => (true, rest)
    | '+' :: rest => (false, rest)
    | cs => (false, cs)
  let whole := cs.takeWhile Char.isDigit
  let cs := cs.drop whole.length
  let (fraction, cs) := match cs with
    | '.' :: rest => (rest.takeWhile Char.isDigit, rest.dropWhile Char.isDigit)
    | cs => ([], cs)
  if whole.isEmpty && fraction.isEmpty then none
  else
    let exponent : Int ← match cs with
      | [] => some 0
      | e :: cs =>
        if e = 'e' ∨ e = 'E' then
          match cs with
          | '-' :: ds => (natural? 10 ds).map fun n => -(n : Int)
          | '+' :: ds => (natural? 10 ds).map fun n => (n : Int)
          | ds => (natural? 10 ds).map fun n => (n : Int)
        else none
    let digits ← natural? 10 (whole ++ fraction)
    -- exponents past these bounds give zero or nothing, whatever the digits
    let shift := exponent - fraction.length
    let magnitude :=
      if digits = 0 then some .zero
      else if shift < -400 - (whole ++ fraction).length then some .zero
      else if 400 < shift then none
      else Decimal.toBinary64? ⟨digits, shift⟩
    magnitude.map (·.withSign negative)

def floatMeaning? (s : String) : Option Meaning :=
  let cs := s.toList
  let unsigned := match cs with
    | '+' :: rest => rest
    | cs => cs
  let word := String.ofList unsigned
  if cs.head? = some '+' && (unsigned.head? = some '+' || unsigned.head? = some '-') then none
  else if word = ".inf" || word = ".Inf" || word = ".INF" then some (.special "inf")
  else if s = "-.inf" || s = "-.Inf" || s = "-.INF" then some (.special "-inf")
  else if s = ".nan" || s = ".NaN" || s = ".NAN" then some (.special "NaN")
  else (finite? unsigned).map .float

/-- The meaning of a plain scalar, by its spelling. -/
def plainMeaning (s : String) : Meaning :=
  if s.isEmpty || isNull s then .null
  else
    match bool? s with
    | some b => .bool b
    | none =>
      match wholeMeaning? s with
      | some m => m
      | none =>
        match (if isPaddedNumber s.toList then none else floatMeaning? s) with
        | some m => m
        | none => .text s

def boolTag : Text.Octets := Text.octets "tag:yaml.org,2002:bool"
def intTag : Text.Octets := Text.octets "tag:yaml.org,2002:int"
def floatTag : Text.Octets := Text.octets "tag:yaml.org,2002:float"
def nullTag : Text.Octets := Text.octets "tag:yaml.org,2002:null"

namespace Scalar

/-- The meaning of a scalar; if its tag forces a reading that does not fit, what was
expected. -/
def meaning (s : Scalar) : Except String Meaning :=
  match s.tag with
  | none => .ok (if s.style = .plain then plainMeaning s.text else .text s.text)
  | some tag =>
    if tag = boolTag then
      match bool? s.text with
      | some b => .ok (.bool b)
      | none => .error "a boolean"
    else if tag = intTag then
      match wholeMeaning? s.text with
      | some m => .ok m
      | none => .error "an integer"
    else if tag = floatTag then
      match floatMeaning? s.text with
      | some m => .ok m
      | none => .error "a float"
    else if tag = nullTag then
      if isNull s.text then .ok .null else .error "null"
    else if (Text.octets "!").isPrefixOf tag && s.style = .plain then .ok (plainMeaning s.text)
    else .ok (.text s.text)

/-- The scalar may be read as the kind that the tag names: it is plain, or a literal block with
that tag. -/
def isOpenTo (s : Scalar) (tag : Text.Octets) : Bool :=
  s.style = .plain || (s.style = .literal && s.tag = some tag)

def isEmpty (s : Scalar) : Bool := s.text.isEmpty && s.style = .plain

end Scalar

end WsGateway.Yaml
