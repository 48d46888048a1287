import WsGateway.Binary64.Shortest
import WsGateway.Json.Value

/-!
# JSON text of a value

The compact text: no blanks, members in their order, and only quotes, backslashes and control
characters escaped.
-/

namespace WsGateway.Json

def escapedChar (c : Char) : String :=
  match c with
  | '"' => "\\\""
  | '\\' => "\\\\"
  | '\n' => "\\n"
  | '\r' => "\\r"
  | '\t' => "\\t"
  | c =>
    let n := c.toNat
    if n = 8 then "\\b"
    else if n = 12 then "\\f"
    else if n < 16 then "\\u000" ++ String.ofList (Nat.toDigits 16 n)
    else if n < 32 then "\\u00" ++ String.ofList (Nat.toDigits 16 n)
    else c.toString

def printString (s : String) : String :=
  "\"" ++ String.join (s.toList.map escapedChar) ++ "\""

/-- The text of a decimal: positional with at least one place behind the point while the point
lies between the fifth zero before the digits and the sixteenth place, with an exponent
otherwise. -/
def printDecimal (d : Decimal) : String :=
  let text := d.digitText
  let point : Int := text.length + d.exponent
  let zeros (n : Int) := String.ofList (List.replicate n.toNat '0')
  if 0 ≤ d.exponent ∧ point ≤ 16 then text ++ zeros d.exponent ++ ".0"
  else if 0 < point ∧ point ≤ 16 then
    String.ofList (text.toList.take point.toNat) ++ "."
      ++ String.ofList (text.toList.drop point.toNat)
  else if -5 < point ∧ point ≤ 0 then "0." ++ zeros (-point) ++ text
  else
    let mantissa := match text.toList with
      | [] => ""
      | [c] => c.toString
      | c :: cs => c.toString ++ "." ++ String.ofList cs
    let sign := if point ≤ 0 then "-" else "+"
    mantissa ++ "e" ++ sign ++ toString (point - 1).natAbs

/-- The text of a floating-point number: the shortest decimal that reads back. -/
def printFloat (x : Binary64) : String :=
  (if x.negative then "-" else "") ++ printDecimal x.shortest

def printNumber : Number → String
  | .int n _ => toString n
  | .float x => printFloat x

mutual

def Value.print : Value → String
  | .null => "null"
  | .bool true => "true"
  | .bool false => "false"
  | .number n => printNumber n
  | .string s => printString s
  | .array items => "[" ++ String.intercalate "," (itemTexts items) ++ "]"
  | .object members => "\x7b" ++ String.intercalate "," (memberTexts members) ++ "\x7d"
termination_by structural v => v

def itemTexts : List Value → List String
  | [] => []
  | v :: rest => v.print :: itemTexts rest
termination_by structural vs => vs

def memberTexts : List (String × Value) → List String
  | [] => []
  | (k, v) :: rest => (printString k ++ ":" ++ v.print) :: memberTexts rest
termination_by structural ms => ms

end

theorem itemTexts_eq_map (items : List Value) : itemTexts items = items.map Value.print := by
  induction items with
  | nil => rfl
  | cons v rest ih => simp [itemTexts, ih]

theorem memberTexts_eq_map (members : List (String × Value)) :
    memberTexts members = members.map fun m => printString m.1 ++ ":" ++ m.2.print := by
  induction members with
  | nil => rfl
  | cons m rest ih => simp [memberTexts, ih]

end WsGateway.Json
