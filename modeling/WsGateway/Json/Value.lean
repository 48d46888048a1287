import WsGateway.Binary64.Basic

/-!
# JSON values

A JSON value as the gateway keeps it: whole numbers of 64 bits are exact, every other number
is a binary floating-point number, and the members of an object are held once each, in
ascending order of their names.
-/

namespace WsGateway.Json

/-- A number: exact where 64 bits hold it, with or without a sign. -/
inductive Number where
  | int (n : Int) (fits : -9223372036854775808 ≤ n ∧ n < 18446744073709551616)
  | float (x : Binary64)
  deriving DecidableEq

inductive Value where
  | null
  | bool (b : Bool)
  | number (n : Number)
  | string (s : String)
  | array (items : List Value)
  | object (members : List (String × Value))
  deriving Inhabited

namespace Number

def ofUInt64 (n : UInt64) : Number :=
  .int n.toNat ⟨by have := n.toNat_lt; omega, by have := n.toNat_lt; omega⟩

def ofInt64 (n : Int64) : Number :=
  .int n.toInt ⟨by have := n.le_toInt; omega, by have := n.toInt_lt; omega⟩

/-- The whole number, if the number is exact. -/
def int? : Number → Option Int
  | .int n _ => some n
  | .float _ => none

end Number

/-- The members of an object with one more, at its place in the order; a member of the same
name is replaced. -/
def insertMember (key : String) (value : Value) : List (String × Value) → List (String × Value)
  | [] => [(key, value)]
  | (k, v) :: rest =>
    if key < k then (key, value) :: (k, v) :: rest
    else if key = k then (key, value) :: rest
    else (k, v) :: insertMember key value rest

namespace Value

/-- The object of named values: a name given twice keeps the last value. -/
def ofMembers (members : List (String × Value)) : Value :=
  .object (members.foldl (fun acc (k, v) => insertMember k v acc) [])

def member? (v : Value) (key : String) : Option Value :=
  match v with
  | .object members => members.lookup key
  | _ => none

def ofUInt64 (n : UInt64) : Value := .number (.ofUInt64 n)

def ofInt64 (n : Int64) : Value := .number (.ofInt64 n)

end Value

end WsGateway.Json
