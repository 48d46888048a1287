import WsGateway.Json.Reader

/-!
# Skipping JSON values

A skipped value is checked for its form only: the halves of surrogate pairs, the range of
numbers and the depth of nesting do not matter.
-/

namespace WsGateway.Json

/-- The letters that may follow a backslash, other than the one of an escape by number. -/
def isShortEscape (c : Char) : Bool := (shortEscape? c).isSome

/-- What is left behind the closing quote of a string. -/
def skipCharsFrom : Nat → List Char → Except Fault (List Char)
  | 0, s => .error (.here .endInString s)
  | _ + 1, [] => .error (.here .endInString [])
  | n + 1, c :: s =>
    if c = '"' then .ok s
    else if c = '\\' then
      match s with
      | [] => .error (.here .endInString [])
      | 'u' :: s => do
        let (_, s) ← readHex s
        skipCharsFrom n s
      | e :: s' =>
        if isShortEscape e then skipCharsFrom n s' else .error (.next .invalidEscape s)
    else if c.toNat < 32 then .error (.here .controlCharacter (c :: s))
    else skipCharsFrom n s

/-- What is left behind a string whose opening quote has been read. -/
def skipString (limit : Nat) (s : List Char) : Except Fault (List Char) :=
  skipCharsFrom (limit + 1) s

/-- What is left behind a number, from its first character. -/
def skipNumber (s : List Char) : Except Fault (List Char) := do
  let digits := match s with
    | '-' :: s => s
    | s => s
  let t ← Numeral.read .invalidNumber false digits
  pure t.rest

/-- The next element of a list that is skipped, or its end: a comma promises another
element. -/
def skipToElement (first : Bool) (s : List Char) : Except Fault Step :=
  match skipBlanks s with
  | [] => .error (.here .endInList [])
  | c :: s =>
    if c = ']' then .ok (.done s)
    else if first then .ok (.item (c :: s))
    else if c = ',' then .ok (.item s)
    else .error (.next .expectedCommaOrBracket (c :: s))

/-- What is left behind the opening quote of a name. -/
def skipToName (s : List Char) : Except Fault (List Char) :=
  match skipBlanks s with
  | [] => .error (.here .endInObject [])
  | c :: s => if c = '"' then .ok s else .error (.next .keyNotString (c :: s))

/-- The next member of an object that is skipped, just behind the opening quote of its name, or
the object's end. -/
def skipToMember (first : Bool) (s : List Char) : Except Fault Step :=
  match skipBlanks s with
  | [] => .error (.here .endInObject [])
  | c :: s => do
    if c = '\x7d' then pure (.done s)
    else if first then
      let s ← skipToName (c :: s)
      pure (.item s)
    else if c = ',' then
      let s ← skipToName s
      pure (.item s)
    else .error (.next .expectedCommaOrBrace (c :: s))

/-- What is left behind a list whose elements `item` skips. -/
def skipElements (item : List Char → Except Fault (List Char)) :
    Nat → Bool → List Char → Except Fault (List Char)
  | 0, _, s => .error (.here .endInList s)
  | n + 1, first, s => do
    match ← skipToElement first s with
    | .done rest => pure rest
    | .item rest =>
      let rest ← item rest
      skipElements item n false rest

/-- What is left behind an object whose values `item` skips. -/
def skipMembers (limit : Nat) (item : List Char → Except Fault (List Char)) :
    Nat → Bool → List Char → Except Fault (List Char)
  | 0, _, s => .error (.here .endInObject s)
  | n + 1, first, s => do
    match ← skipToMember first s with
    | .done rest => pure rest
    | .item rest =>
      let rest ← skipString limit rest
      let rest ← readColon rest
      let rest ← item rest
      skipMembers limit item n false rest

/-- What is left behind a value nested at most `depth` deep; the length of the text is deep
enough for every value in it. -/
def skipNested (limit : Nat) : Nat → List Char → Except Fault (List Char)
  | depth, s =>
    match skipBlanks s with
    | [] => .error (.here .endInValue [])
    | 'n' :: s => readWord ['u', 'l', 'l'] s
    | 't' :: s => readWord ['r', 'u', 'e'] s
    | 'f' :: s => readWord ['a', 'l', 's', 'e'] s
    | '"' :: s => skipString limit s
    | '[' :: s =>
      match depth with
      | 0 => .error (.next .tooDeep ('[' :: s))
      | depth + 1 => skipElements (fun s => skipNested limit depth s) (limit + 1) true s
    | '\x7b' :: s =>
      match depth with
      | 0 => .error (.next .tooDeep ('\x7b' :: s))
      | depth + 1 => skipMembers limit (fun s => skipNested limit depth s) (limit + 1) true s
    | c :: s =>
      if c = '-' ∨ c.isDigit then skipNumber (c :: s)
      else .error (.next .expectedValue (c :: s))

theorem skipNested_eq (limit depth : Nat) (s : List Char) : skipNested limit depth s =
    match skipBlanks s with
    | [] => .error (.here .endInValue [])
    | 'n' :: s => readWord ['u', 'l', 'l'] s
    | 't' :: s => readWord ['r', 'u', 'e'] s
    | 'f' :: s => readWord ['a', 'l', 's', 'e'] s
    | '"' :: s => skipString limit s
    | '[' :: s =>
      match depth with
      | 0 => .error (.next .tooDeep ('[' :: s))
      | depth + 1 => skipElements (fun s => skipNested limit depth s) (limit + 1) true s
    | '\x7b' :: s =>
      match depth with
      | 0 => .error (.next .tooDeep ('\x7b' :: s))
      | depth + 1 => skipMembers limit (fun s => skipNested limit depth s) (limit + 1) true s
    | c :: s =>
      if c = '-' ∨ c.isDigit then skipNumber (c :: s)
      else .error (.next .expectedValue (c :: s)) := by
  rw [skipNested]

def skipValue (limit : Nat) (s : List Char) : Except Fault (List Char) :=
  skipNested limit (limit + 1) s

/-- The text of a value as it stands, without the blanks before it, and what is left. -/
def readVerbatim (limit : Nat) (s : List Char) : Except Fault (String × List Char) := do
  let s := skipBlanks s
  let rest ← skipValue limit s
  pure (String.ofList (s.take (s.length - rest.length)), rest)

/-- The text of the only value in a text, without the blanks around it; `none` when the text
is no JSON. -/
def verbatim? (text : String) : Option String :=
  (readAll readVerbatim text.toList).toOption

end WsGateway.Json
