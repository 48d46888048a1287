import WsGateway.Text.Octets

/-!
# A place in a YAML text

The characters that matter to the scanner, and a cursor that counts lines and columns while it
moves.
-/

namespace WsGateway.Yaml

def isBlank (c : Char) : Bool := c == ' ' || c == '\t'

def isBreak (c : Char) : Bool :=
  c == '\r' || c == '\n' || c == '\u0085' || c == '\u2028' || c == '\u2029'

def isWordChar (c : Char) : Bool :=
  c.isAlphanum || c == '_' || c == '-'

def isAllowed (c : Char) : Bool :=
  let n := c.toNat
  n == 0x09 || n == 0x0A || n == 0x0D || (0x20 ≤ n && n ≤ 0x7E) || n == 0x85
    || (0xA0 ≤ n && n ≤ 0xD7FF) || (0xE000 ≤ n && n ≤ 0xFFFD)
    || (0x10000 ≤ n && n ≤ 0x10FFFF)

/-- What is left of a text, and where it starts: the octets before it, the lines before it, and the
characters before it on its line. -/
structure Cursor where
  rest : List Char
  octets : Nat
  line : Nat
  column : Nat

namespace Cursor

def start (text : List Char) : Cursor := ⟨text, 0, 0, 0⟩

def at? (c : Cursor) (n : Nat) : Option Char := c.rest[n]?

def has (c : Cursor) (n : Nat) (p : Char → Bool) : Bool := (c.at? n).any p

def isAt (c : Cursor) (n : Nat) (x : Char) : Bool := c.at? n == some x

/-- The text ends `n` places on, or a space, a tab or a line break stands there. -/
def isGapAt (c : Cursor) (n : Nat) : Bool :=
  match c.at? n with
  | none => true
  | some x => isBlank x || isBreak x

def isLineEnd (c : Cursor) : Bool :=
  match c.at? 0 with
  | none => true
  | some x => isBreak x

/-- The cursor `n` characters on, none of which ends a line. -/
def skip (c : Cursor) (n : Nat) : Cursor :=
  ⟨c.rest.drop n, c.octets + Text.octetCount (c.rest.take n), c.line, c.column + n⟩

/-- The cursor behind the characters at the front that satisfy `p`, none of which ends a
line. -/
def skipWhile (c : Cursor) (p : Char → Bool) : Cursor :=
  c.skip (c.rest.takeWhile p).length

/-- The text of the line break here, with the usual breaks as line feeds, and the cursor behind
it. At the end of the text nothing is read. -/
def readBreak (c : Cursor) : List Char × Cursor :=
  match c.rest with
  | '\r' :: '\n' :: rest => (['\n'], ⟨rest, c.octets + 2, c.line + 1, 0⟩)
  | x :: rest =>
    let text := if x == '\u2028' || x == '\u2029' then x else '\n'
    ([text], ⟨rest, c.octets + x.utf8Size, c.line + 1, 0⟩)
  | [] => ([], c)

def skipComment (c : Cursor) : Cursor :=
  if c.isAt 0 '#' then c.skipWhile fun x => !isBreak x else c

/-- Three times `x` stand at the start of a line, and nothing follows them directly. -/
def isMarker (c : Cursor) (x : Char) : Bool :=
  c.column == 0 && c.isAt 0 x && c.isAt 1 x && c.isAt 2 x && c.isGapAt 3

def isDocumentMarker (c : Cursor) : Bool := c.isMarker '-' || c.isMarker '.'

end Cursor

end WsGateway.Yaml
