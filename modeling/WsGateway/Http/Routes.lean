import WsGateway.Error
import WsGateway.FinMap
import WsGateway.Text.Quoted
import WsGateway.Text.Split

/-!
# Routes

Handlers by the first segment of a path. A registration is never overwritten.
-/

namespace WsGateway.Http

/-- The first segment of a path that is not empty, before any query or fragment. -/
def routeKey? (path : String) : Option String :=
  let path := path.toList.takeWhile fun c => c ≠ '?' ∧ c ≠ '#'
  ((Text.splitChars '/' path).find? (!·.isEmpty)).map String.ofList

/-- A path segment without the slashes at its ends. -/
def stripSlashes (s : List Char) : List Char :=
  ((s.dropWhile (· = '/')).reverse.dropWhile (· = '/')).reverse

abbrev Routes (η : Type) := FinMap String η

namespace Routes

variable {η : Type}

/-- The routes with one more, unless its segment is malformed or taken. -/
def register (r : Routes η) (segment : String) (handler : η) : Except Error (Routes η) :=
  let name := stripSlashes segment.toList
  let key := String.ofList name
  if name.isEmpty || name.contains '/' then
    .error (.config ("path prefix must be a single segment: " ++ Text.quoted key))
  else if FinMap.contains r key then
    .error (.duplicate ("path prefix already registered: " ++ key))
  else .ok (FinMap.insert r key handler)

def lookup (r : Routes η) (key : String) : Option η := FinMap.get? r key

def names (r : Routes η) : List String :=
  (FinMap.keys r).mergeSort fun a b => decide (a ≤ b)

end Routes

end WsGateway.Http
