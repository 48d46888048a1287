import WsGateway.Yaml.Token.Scalar

/-!
# Scanning YAML tokens

The scanner keeps a queue of tokens, because a key is recognized only when the colon behind it
is reached: the token that announces the key is then put before it. A token is given out once
nothing can come before it any more. `Token.scan` gives the tokens of a text up to the first
malformed place.
-/

namespace WsGateway.Yaml

/-- A token that may turn out to be a key: whether it must, its number, and its place. -/
structure SimpleKey where
  required : Bool
  number : Nat
  octets : Nat
  line : Nat
  column : Nat

/-- A scanner at work. `keys` has an entry for each flow collection around the place and one for
the block outside, innermost first; `taken` counts the tokens given out. A scanner that is `cut`
has only the front of a text: nothing behind it can be read. -/
structure Scanner where
  cursor : Cursor
  cut : Bool
  indent : Int
  indents : List Int
  keys : List (Option SimpleKey)
  keyAllowed : Bool
  queue : List Token
  taken : Nat
  ended : Bool

namespace Scanner

/-- The scanner at the start of a text, or of the front of one. -/
def start (text : List Char) (cut : Bool) : Scanner :=
  ⟨.start text, cut, -1, [], [none], true, [.streamStart], 0, false⟩

/-- Whatever stands at the next `n` places can be read, be it the end of the text. -/
def canLook (s : Scanner) (n : Nat) : Bool := !s.cut || !(s.cursor.rest.drop (n - 1)).isEmpty

def inFlow (s : Scanner) : Bool := s.keys.length > 1

def emit (s : Scanner) (t : Token) : Scanner := { s with queue := s.queue ++ [t] }

/-- The scanner with a token put in before the token of the number. -/
def emitBefore (s : Scanner) (number : Nat) (t : Token) : Scanner :=
  let (front, back) := s.queue.splitAt (number - s.taken)
  { s with queue := front ++ t :: back }

/-- Blocks indented deeper than `column` end. -/
def unroll (s : Scanner) (column : Int) : Scanner :=
  if s.inFlow then s
  else
    let closed := (s.indent :: s.indents).takeWhile (column < ·)
    match (s.indent :: s.indents).drop closed.length with
    | [] => { s with indent := -1, indents := [] }
    | indent :: indents =>
      { s with
        indent := indent
        indents := indents
        queue := s.queue ++ List.replicate closed.length .blockEnd }

/-- A block starts at `column` if that is deeper than the block around; its token comes before
the token of the number, or last. -/
def roll (s : Scanner) (column : Nat) (before : Option Nat) (t : Token) : Scanner :=
  if s.inFlow || (column : Int) ≤ s.indent then s
  else
    let s := { s with indent := column, indents := s.indent :: s.indents }
    match before with
    | none => s.emit t
    | some number => s.emitBefore number t

/-- The token that might have been a key here is none; it is malformed if it had to be one. -/
def dropKey (s : Scanner) : Option Scanner :=
  match s.keys with
  | some key :: keys => if key.required then none else some { s with keys := none :: keys }
  | _ => some s

/-- The next token may be a key. -/
def markKey (s : Scanner) : Option Scanner :=
  if !s.keyAllowed then some s
  else do
    let s ← s.dropKey
    let required := !s.inFlow && s.indent == s.cursor.column
    let key : SimpleKey :=
      ⟨required, s.taken + s.queue.length, s.cursor.octets, s.cursor.line, s.cursor.column⟩
    pure { s with keys := some key :: s.keys.tail }

/-- Tokens on earlier lines, or too far back, are no keys any more. -/
def dropStaleKeys (s : Scanner) : Option Scanner := do
  let keys ← s.keys.mapM fun key =>
    match key with
    | none => some none
    | some k =>
      if k.line < s.cursor.line || k.octets + 1024 < s.cursor.octets then
        if k.required then none else some none
      else some (some k)
  pure { s with keys := keys }

/-- The scanner past the blanks, comments and line breaks before the next token. -/
def toNextToken : Nat → Scanner → Scanner
  | 0, s => s
  | fuel + 1, s =>
    let c := if s.cursor.column == 0 && s.cursor.isAt 0 '\uFEFF' then s.cursor.skip 1 else s.cursor
    let tabs := s.inFlow || !s.keyAllowed
    let c := (c.skipWhile fun x => x == ' ' || (tabs && x == '\t')).skipComment
    if c.has 0 isBreak then
      toNextToken fuel
        { s with cursor := c.readBreak.2, keyAllowed := s.keyAllowed || !s.inFlow }
    else { s with cursor := c }

def accept (s : Scanner) (n : Nat) (t : Token) : Scanner :=
  { s with cursor := s.cursor.skip n }.emit t

/-! ## Directives, anchors and tags -/

def word (c : Cursor) : List Char := c.rest.takeWhile isWordChar

/-- The number of at most nine digits at the cursor, and the cursor behind it. -/
def versionNumber? (c : Cursor) : Option (Nat × Cursor) :=
  let digits := c.rest.takeWhile Char.isDigit
  if digits.isEmpty || 9 < digits.length then none
  else some (digits.foldl (fun n d => n * 10 + (d.toNat - '0'.toNat)) 0, c.skip digits.length)

/-- The handle of a tag at the cursor, and the cursor behind it. In a directive it is a single
mark or ends in one. -/
def tagHandle? (directive : Bool) (c : Cursor) : Option (List Char × Cursor) :=
  if !c.isAt 0 '!' then none
  else
    let name := '!' :: word (c.skip 1)
    let c := c.skip name.length
    if c.isAt 0 '!' then some (name ++ ['!'], c.skip 1)
    else if directive && name.length ≠ 1 then none
    else some (name, c)

/-- A character of a tag. Commas and brackets count inside a full address only. -/
def isTagChar (address : Bool) (c : Char) : Bool :=
  isWordChar c || ";/?:@&=+$.!~*'()".toList.contains c || (address && ",[]".toList.contains c)

/-- The octet that an escape at the front spells, and the text behind. -/
def escapedOctet? : List Char → Option (UInt8 × List Char)
  | '%' :: a :: b :: rest => do
    let high ← Text.hexValue? a
    let low ← Text.hexValue? b
    pure (UInt8.ofNat (high * 16 + low), rest)
  | _ => none

/-- How many octets follow the first octet of a character. -/
def followers? (b : UInt8) : Option Nat :=
  if b < 0x80 then some 0
  else if b < 0xC0 then none
  else if b < 0xE0 then some 1
  else if b < 0xF0 then some 2
  else if b < 0xF8 then some 3
  else none

/-- The given number of escaped octets, each of which continues a character. -/
def escapedFollowers? : Nat → List Char → Option (Text.Octets × List Char)
  | 0, s => some ([], s)
  | n + 1, s => do
    let (b, s) ← escapedOctet? s
    if !Text.isContinuation b then none
    else
      let (bs, s) ← escapedFollowers? n s
      pure (b :: bs, s)

/-- The octets of the character that escapes at the front spell, and the text behind. Only the
pattern of the octets is checked, not the number that they stand for. -/
def escapedChar? (s : List Char) : Option (Text.Octets × List Char) := do
  let (b, s) ← escapedOctet? s
  let (bs, s) ← escapedFollowers? (← followers? b) s
  pure (b :: bs, s)

/-- The octets of a tag at the front of a text, and how many characters were read for them. -/
def tagOctets (address : Bool) : Nat → List Char → Option (Text.Octets × Nat)
  | 0, _ => none
  | _, [] => some ([], 0)
  | fuel + 1, c :: rest =>
    if c == '%' then do
      let (bytes, after) ← escapedChar? (c :: rest)
      let (more, count) ← tagOctets address fuel after
      pure (bytes ++ more, bytes.length * 3 + count)
    else if isTagChar address c then do
      let (more, count) ← tagOctets address fuel rest
      pure (Text.octets c.toString ++ more, count + 1)
    else some ([], 0)

/-- A tag behind `head`, which has been read as its handle; it must not be empty. An octet of zero
ends it, although what stands behind that is read as well. -/
def tagSuffix? (address : Bool) (head : List Char) (c : Cursor) :
    Option (Text.Octets × Cursor) := do
  let (bytes, count) ← tagOctets address (c.rest.length + 1) c.rest
  if head.isEmpty && count = 0 then none
  else
    let whole := Text.octets (String.ofList (head.drop 1)) ++ bytes
    pure (whole.takeWhile (· ≠ 0), c.skip count)

def directive (s : Scanner) : Option Scanner := do
  let s := s.unroll (-1)
  let s ← s.dropKey
  let c := s.cursor.skip 1
  let name := word c
  let c := c.skip name.length
  if name.isEmpty || !c.isGapAt 0 then none
  else
    let c := c.skipWhile isBlank
    let (token, c) ←
      if String.ofList name = "YAML" then do
        let (major, c) ← versionNumber? c
        if !c.isAt 0 '.' then none
        else
          let (minor, c) ← versionNumber? (c.skip 1)
          pure (Token.versionDirective major minor, c)
      else if String.ofList name = "TAG" then do
        let (handle, c) ← tagHandle? true c
        if !c.has 0 isBlank then none
        else
          let (target, c) ← tagSuffix? true [] (c.skipWhile isBlank)
          if !c.isGapAt 0 then none
          else pure (Token.tagDirective (String.ofList handle) target, c)
      else none
    let c := (c.skipWhile isBlank).skipComment
    -- Nothing but a comment may follow on the line.
    if !c.isLineEnd then none
    else pure ({ s with cursor := c.readBreak.2, keyAllowed := false }.emit token)

def reference (s : Scanner) (make : String → Token) : Option Scanner := do
  let s ← s.markKey
  let name := word (s.cursor.skip 1)
  let c := s.cursor.skip (name.length + 1)
  if name.isEmpty || !(c.isGapAt 0 || c.has 0 ("?:,]\x7d%@`".toList.contains ·)) then none
  else pure ({ s with cursor := c, keyAllowed := false }.emit (make (String.ofList name)))

/-- A tag whose sign stands here: an address in angle brackets, or a handle and a suffix. -/
def tagToken? (c : Cursor) : Option (Token × Cursor) :=
  if c.isAt 1 '<' then do
    let (suffix, c) ← tagSuffix? true [] (c.skip 2)
    if c.isAt 0 '>' then pure (.tag "" suffix, c.skip 1) else none
  else do
    let (handle, c) ← tagHandle? false c
    if 2 ≤ handle.length && handle.getLast? == some '!' then
      let (suffix, c) ← tagSuffix? false [] c
      pure (.tag (String.ofList handle) suffix, c)
    else
      let (suffix, c) ← tagSuffix? false handle c
      if suffix.isEmpty then pure (.tag "" (Text.octets "!"), c) else pure (.tag "!" suffix, c)

/-- A tag whose sign stands here, with a gap behind it. -/
def tag (s : Scanner) : Option Scanner := do
  let s ← s.markKey
  let (token, c) ← tagToken? s.cursor
  if c.isGapAt 0 || (s.inFlow && c.isAt 0 ',') then
    pure ({ s with cursor := c, keyAllowed := false }.emit token)
  else none

/-! ## Collections and keys -/

def startFlow (s : Scanner) (t : Token) : Option Scanner := do
  let s ← s.markKey
  pure ({ s with keys := none :: s.keys, keyAllowed := true }.accept 1 t)

def endFlow (s : Scanner) (t : Token) : Option Scanner := do
  let s ← s.dropKey
  let keys := match s.keys with
    | _ :: k :: keys => k :: keys
    | keys => keys
  pure ({ s with keys := keys, keyAllowed := false }.accept 1 t)

def flowEntry (s : Scanner) : Option Scanner := do
  let s ← s.dropKey
  pure ({ s with keyAllowed := true }.accept 1 .flowEntry)

def blockEntry (s : Scanner) : Option Scanner := do
  if !s.inFlow && !s.keyAllowed then none
  else
    let s := s.roll s.cursor.column none .blockSequenceStart
    let s ← s.dropKey
    pure ({ s with keyAllowed := true }.accept 1 .blockEntry)

def explicitKey (s : Scanner) : Option Scanner := do
  if !s.inFlow && !s.keyAllowed then none
  else
    let s := s.roll s.cursor.column none .blockMappingStart
    let s ← s.dropKey
    pure ({ s with keyAllowed := !s.inFlow }.accept 1 .key)

/-- A value follows: the token that might have been a key is one. -/
def value (s : Scanner) : Option Scanner :=
  match s.keys with
  | some key :: keys =>
    let s := s.emitBefore key.number .key
    let s := s.roll key.column (some key.number) .blockMappingStart
    some ({ s with keys := none :: keys, keyAllowed := false }.accept 1 .value)
  | _ =>
    if !s.inFlow && !s.keyAllowed then none
    else
      let s := s.roll s.cursor.column none .blockMappingStart
      some ({ s with keyAllowed := !s.inFlow }.accept 1 .value)

def documentMarker (s : Scanner) (t : Token) : Option Scanner := do
  let s := s.unroll (-1)
  let s ← s.dropKey
  pure ({ s with keyAllowed := false }.accept 3 t)

/-- The scanner at the start of a line: the one it is on, or the next one. -/
def atLineStart (s : Scanner) : Scanner :=
  if s.cursor.column = 0 then s
  else { s with cursor := { s.cursor with line := s.cursor.line + 1, column := 0 } }

/-- The text ends here. The line ends with it, so that no token on it is a key any more. -/
def finish (s : Scanner) : Option Scanner := do
  let s := s.atLineStart.unroll (-1)
  let s ← s.dropKey
  pure ({ s with keyAllowed := false, ended := true }.emit .streamEnd)

/-! ## Scalars -/

def quotedScalar (s : Scanner) (single : Bool) : Option Scanner := do
  let s ← s.markKey
  let (token, c) ← scanQuoted single s.cursor
  pure ({ s with cursor := c, keyAllowed := false }.emit token)

def blockScalar (s : Scanner) (literal : Bool) : Option Scanner := do
  let s ← s.dropKey
  let (token, c) ← scanBlock literal s.indent s.cursor
  pure ({ s with cursor := c, keyAllowed := true }.emit token)

def plainScalar (s : Scanner) : Option Scanner := do
  let s ← s.markKey
  let (token, broken, c) ← scanPlain s.inFlow (s.indent + 1) s.cursor
  pure ({ s with cursor := c, keyAllowed := broken }.emit token)

def startsPlain (s : Scanner) : Bool :=
  let c := s.cursor
  match c.at? 0 with
  | none => false
  | some x =>
    !(c.isGapAt 0 || "-?:,[]\x7b\x7d#&*!|>'\"%@`".toList.contains x)
      || (x == '-' && !c.has 1 isBlank)
      || (!s.inFlow && (x == '?' || x == ':') && !c.isGapAt 1)

/-! ## The stream of tokens -/

def scanToken (s : Scanner) : Option Scanner :=
  let c := s.cursor
  match c.at? 0 with
  | none => s.finish
  | some x =>
    if c.column == 0 && x == '%' then s.directive
    else if c.isMarker '-' then s.documentMarker .documentStart
    else if c.isMarker '.' then s.documentMarker .documentEnd
    else if x == '[' then s.startFlow .flowSequenceStart
    else if x == '\x7b' then s.startFlow .flowMappingStart
    else if x == ']' then s.endFlow .flowSequenceEnd
    else if x == '\x7d' then s.endFlow .flowMappingEnd
    else if x == ',' then s.flowEntry
    else if x == '-' && c.isGapAt 1 then s.blockEntry
    else if x == '?' && (s.inFlow || c.isGapAt 1) then s.explicitKey
    else if x == ':' && (s.inFlow || c.isGapAt 1) then s.value
    else if x == '*' then s.reference .alias
    else if x == '&' then s.reference .anchor
    else if x == '!' then s.tag
    else if x == '|' && !s.inFlow then s.blockScalar true
    else if x == '>' && !s.inFlow then s.blockScalar false
    else if x == '\'' then s.quotedScalar true
    else if x == '"' then s.quotedScalar false
    else if s.startsPlain then s.plainScalar
    else none

/-- How many places the start of a token takes to be told from others. -/
def tokenStart : Nat := 4

/-- The scanner with at least one more token in its queue; nothing at a malformed place, and
nothing where characters matter that cannot be read. -/
def fetch (s : Scanner) : Option Scanner := do
  let s := s.toNextToken (s.cursor.rest.length + 1)
  let s ← s.dropStaleKeys
  let s := s.unroll s.cursor.column
  if !s.canLook tokenStart then none
  else
    let s ← s.scanToken
    if s.canLook 1 then pure s else none

/-- The first token of the queue might still turn out to be a key. -/
def awaitsKey (s : Scanner) : Bool :=
  s.keys.any fun key => key.any (·.number == s.taken)

/-- The tokens from here on, and whether they reach the end of the stream. -/
def tokensFrom : Nat → Scanner → List Token × Bool
  | 0, _ => ([], false)
  | fuel + 1, s =>
    let checked := if s.queue.isEmpty then some s else s.dropStaleKeys
    match checked with
    | none => ([], false)
    | some s =>
      match s.queue with
      | t :: queue =>
        if s.awaitsKey then
          match s.fetch with
          | none => ([], false)
          | some s => tokensFrom fuel s
        else if t = .streamEnd then ([t], true)
        else
          let (tokens, whole) := tokensFrom fuel { s with queue := queue, taken := s.taken + 1 }
          (t :: tokens, whole)
      | [] =>
        match s.fetch with
        | none => ([], false)
        | some s => tokensFrom fuel s

end Scanner

/-- How many octets of a text are read at once. -/
def blockSize : Nat := 16384

/-- The characters at the front of a text that have at most `size` octets together, and those
behind them. -/
def splitBlock : Nat → List Char → List Char × List Char
  | _, [] => ([], [])
  | size, c :: cs =>
    if size < c.utf8Size then ([], c :: cs)
    else
      let (block, rest) := splitBlock (size - c.utf8Size) cs
      (c :: block, rest)

/-- The front of a text that can be read: everything before the first block with a character that
is not allowed. The first argument bounds the number of blocks. -/
def readable : Nat → List Char → List Char
  | 0, _ => []
  | n + 1, cs =>
    let (block, rest) := splitBlock blockSize cs
    if block.isEmpty || !block.all isAllowed then [] else block ++ readable n rest

/-- The tokens of a text up to the first malformed place, and whether there is none. -/
def Token.scan (text : String) : List Token × Bool :=
  let cs := text.toList
  let front := readable cs.length cs
  Scanner.tokensFrom (8 * front.length + 16) (.start front (front.length < cs.length))

end WsGateway.Yaml
