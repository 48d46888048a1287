import WsGateway.Json.Reader

/-!
# Reading JSON values

A value is read with lists and objects nested up to a depth. An object whose first member has
the embedding name is no object: the text of that member, which must be the only one, is read
as a JSON text of its own, and the object stands for the value found there. What is wrong with
an embedded text is told with the place in that text.
-/

namespace WsGateway.Json

/-- How deep lists and objects may be nested in a text that is read. -/
def maxDepth : Nat := 127

/-! ## Embedded texts -/

/-- The name of the member that holds an embedded text. -/
def embeddingName : String := "$serde_json::private::RawValue"

/-- What is left behind the name of the first member of an object, if it is the embedding
name. -/
def afterEmbeddingName? (limit : Nat) (s : List Char) : Option (List Char) :=
  match nextMember true s with
  | .ok (.item rest) =>
    match readString limit rest with
    | .ok (name, rest) => if name = embeddingName then some rest else none
    | .error _ => none
  | _ => none

/-- The value of an embedded text, read from behind its name; `parse` gives the value of a
text or says what is wrong with it. -/
def readEmbedded (parse : String → Except String Value) (limit : Nat) (s : List Char) :
    Except Fault (Value × List Char) := do
  let s ← readColon s
  let (text, s) ← readText "raw value" limit s
  match parse text with
  | .error message => .error (.here (.embedded message) s)
  | .ok v =>
    let s ← endMembers s
    pure (v, s)

/-! ## Values -/

/-- A value, with lists and objects nested at most `depth` deep; `parse` reads the embedded
texts. -/
def readValueWith (parse : String → Except String Value) (limit : Nat) :
    Nat → List Char → Except Fault (Value × List Char)
  | depth, s =>
    match skipBlanks s with
    | [] => .error (.here .endInValue [])
    | 'n' :: s => do
      let s ← readWord ['u', 'l', 'l'] s
      pure (.null, s)
    | 't' :: s => do
      let s ← readWord ['r', 'u', 'e'] s
      pure (.bool true, s)
    | 'f' :: s => do
      let s ← readWord ['a', 'l', 's', 'e'] s
      pure (.bool false, s)
    | '"' :: s => do
      let (text, s) ← readString limit s
      pure (.string text, s)
    | '[' :: s =>
      match depth with
      | 0 => .error (.next .tooDeep ('[' :: s))
      | depth + 1 => do
        let (items, s) ←
          readElements (fun s => readValueWith parse limit depth s) (limit + 1) true s
        pure (.array items, s)
    | '\x7b' :: s =>
      match depth with
      | 0 => .error (.next .tooDeep ('\x7b' :: s))
      | depth + 1 =>
        match afterEmbeddingName? limit s with
        | some rest => readEmbedded parse limit rest
        | none => do
          let (members, s) ←
            readMembers limit (fun s => readValueWith parse limit depth s) (limit + 1) true s
          pure (.ofMembers members, s)
    | c :: s =>
      if c = '-' ∨ c.isDigit then do
        let (n, s) ← readNumber (c :: s)
        pure (.number n, s)
      else .error (.next .expectedValue (c :: s))

theorem readValueWith_eq (parse : String → Except String Value) (limit depth : Nat)
    (s : List Char) : readValueWith parse limit depth s =
    match skipBlanks s with
    | [] => .error (.here .endInValue [])
    | 'n' :: s => do
      let s ← readWord ['u', 'l', 'l'] s
      pure (.null, s)
    | 't' :: s => do
      let s ← readWord ['r', 'u', 'e'] s
      pure (.bool true, s)
    | 'f' :: s => do
      let s ← readWord ['a', 'l', 's', 'e'] s
      pure (.bool false, s)
    | '"' :: s => do
      let (text, s) ← readString limit s
      pure (.string text, s)
    | '[' :: s =>
      match depth with
      | 0 => .error (.next .tooDeep ('[' :: s))
      | depth + 1 => do
        let (items, s) ←
          readElements (fun s => readValueWith parse limit depth s) (limit + 1) true s
        pure (.array items, s)
    | '\x7b' :: s =>
      match depth with
      | 0 => .error (.next .tooDeep ('\x7b' :: s))
      | depth + 1 =>
        match afterEmbeddingName? limit s with
        | some rest => readEmbedded parse limit rest
        | none => do
          let (members, s) ←
            readMembers limit (fun s => readValueWith parse limit depth s) (limit + 1) true s
          pure (.ofMembers members, s)
    | c :: s =>
      if c = '-' ∨ c.isDigit then do
        let (n, s) ← readNumber (c :: s)
        pure (.number n, s)
      else .error (.next .expectedValue (c :: s)) := by
  rw [readValueWith]

/-- The value of an embedded text, with further texts embedded in one another fewer than the
given number of times. An embedded text is shorter than the text around it, so the length of
the outermost text is always enough. -/
def parseEmbedded : Nat → String → Except String Value
  | 0, _ => .error Cause.tooDeep.text
  | n + 1, text =>
    match readAll (fun limit s => readValueWith (parseEmbedded n) limit maxDepth s) text.toList with
    | .ok v => .ok v
    | .error fault => .error (fault.message text)

/-- A value, with lists and objects nested at most `depth` deep; the nesting inside an embedded
text is counted anew. -/
def readValue (limit depth : Nat) (s : List Char) : Except Fault (Value × List Char) :=
  readValueWith (parseEmbedded limit) limit depth s

def Value.parse (text : String) : Except Fault Value :=
  readAll (fun limit s => readValue limit maxDepth s) text.toList

end WsGateway.Json
