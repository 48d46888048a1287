import WsGateway.Json.Decoder

/-!
# Contents

What a handler puts into a response. A content can be turned into a JSON value, or be written
out as text piece by piece; either may fail, and writing may fail after part of the text has
been written.
-/

namespace WsGateway

open Json (Value)

/-- What writing a content gave: the text that was written, and the reason if it stopped
before the end. -/
structure Encoding where
  written : String
  failure : Option String := none
  deriving DecidableEq

/-- Something that can be put into a response. -/
inductive Content where
  /-- A JSON value. -/
  | value (v : Value)
  /-- A JSON text, written as it stands. -/
  | verbatim (text : String)
  /-- A number that is not finite; it is written as null. -/
  | notFinite
  /-- A map with a list as its key, which JSON does not have. -/
  | badKey
  /-- A list that fails with a message after its first items. -/
  | broken (items : List Value) (message : String)

namespace Content

def badKeyMessage : String := "key must be a string"

/-- The content of a JSON text; a text that is no JSON counts as null. -/
def ofText (text : String) : Content :=
  match Json.verbatim? text with
  | some text => .verbatim text
  | none => .value .null

def text (s : String) : Content := .value (.string s)

def toValue : Content → Except String Value
  | .value v => .ok v
  | .verbatim text =>
    match Value.parse text with
    | .ok v => .ok v
    | .error fault => .error (fault.message text)
  | .notFinite => .ok .null
  | .badKey => .error badKeyMessage
  | .broken _ message => .error (Json.passedOn message)

def encoding : Content → Encoding
  | .value v => ⟨v.print, none⟩
  | .verbatim text => ⟨text, none⟩
  | .notFinite => ⟨"null", none⟩
  | .badKey => ⟨"\x7b", some badKeyMessage⟩
  | .broken items message =>
    ⟨"[" ++ String.intercalate "," (Json.itemTexts items), some (Json.passedOn message)⟩

end Content

end WsGateway
