import WsGateway.Text.Octets
import WsGateway.Yaml.Cursor
import WsGateway.Yaml.Token.Basic

/-!
# Scanning scalars

Plain, quoted and block scalars. Lines of a scalar are joined: a single line break between
them becomes a space, further ones are kept. The scanners give nothing for a malformed scalar.
Arguments named `fuel` bound the repetitions; the length of the text is always enough.
-/

namespace WsGateway.Yaml

/-- The blanks and line breaks between two runs of characters of a scalar. -/
structure Gap where
  broken : Bool
  blanks : List Char
  firstBreak : List Char
  breaks : List Char

namespace Gap

def none : Gap := ⟨false, [], [], []⟩

def text (g : Gap) : List Char :=
  if g.broken then
    if g.firstBreak.head? == some '\n' then
      if g.breaks.isEmpty then [' '] else g.breaks
    else g.firstBreak ++ g.breaks
  else g.blanks

/-- The blanks and breaks from here on. With `tabLimit`, a tab left of that column behind a
break is malformed. -/
def scan (tabLimit : Option Nat) : Nat → Gap → Cursor → Option (Gap × Cursor)
  | 0, _, _ => Option.none
  | fuel + 1, g, c =>
    match c.at? 0 with
    | Option.none => some (g, c)
    | some x =>
      if isBlank x then
        if g.broken && x == '\t' && tabLimit.any (fun limit => c.column < limit) then Option.none
        else if g.broken then scan tabLimit fuel g (c.skip 1)
        else scan tabLimit fuel { g with blanks := g.blanks ++ [x] } (c.skip 1)
      else if isBreak x then
        let (text, c) := c.readBreak
        if g.broken then scan tabLimit fuel { g with breaks := g.breaks ++ text } c
        else scan tabLimit fuel ⟨true, [], text, g.breaks⟩ c
      else some (g, c)

end Gap

/-! ## Plain scalars -/

/-- The characters of a plain scalar up to a gap or to what ends it. -/
def plainRun (flow : Bool) : List Char → Option (List Char)
  | [] => some []
  | x :: rest =>
    let next := rest.head?
    if isBlank x || isBreak x then some []
    else if flow && x == ':' && next.any (",?[]\x7b\x7d".toList.contains ·) then none
    else if x == ':' && (next.map fun y => isBlank y || isBreak y).getD true then some []
    else if flow && ",[]\x7b\x7d".toList.contains x then some []
    else (plainRun flow rest).map (x :: ·)

/-- The rest of a plain scalar whose characters so far are `text`. -/
def scanPlainFrom (flow : Bool) (indent : Int) :
    Nat → List Char → Gap → Cursor → Option (List Char × Gap × Cursor)
  | 0, _, _, _ => none
  | fuel + 1, text, gap, c => do
    if c.isDocumentMarker || c.isAt 0 '#' then some (text, gap, c)
    else
      let run ← plainRun flow c.rest
      let (text, gap) := if run.isEmpty then (text, gap) else (text ++ gap.text ++ run, Gap.none)
      let c := c.skip run.length
      if c.rest.isEmpty || !c.isGapAt 0 then some (text, gap, c)
      else
        let (gap, c) ← gap.scan (some indent.toNat) (c.rest.length + 1) c
        if !flow && (c.column : Int) < indent then some (text, gap, c)
        else scanPlainFrom flow indent fuel text gap c

/-- A plain scalar whose lines are indented at least to `indent`, the cursor behind it, and
whether a line break follows it. -/
def scanPlain (flow : Bool) (indent : Int) (c : Cursor) : Option (Token × Bool × Cursor) := do
  let (text, gap, c) ← scanPlainFrom flow indent (c.rest.length + 1) [] .none c
  pure (.scalar (String.ofList text) .plain, gap.broken, c)

/-! ## Quoted scalars -/

def shortEscape? : Char → Option Char
  | '0' => some (Char.ofNat 0)
  | 'a' => some (Char.ofNat 7)
  | 'b' => some (Char.ofNat 8)
  | 't' => some '\t'
  | '\t' => some '\t'
  | 'n' => some '\n'
  | 'v' => some (Char.ofNat 11)
  | 'f' => some (Char.ofNat 12)
  | 'r' => some '\r'
  | 'e' => some (Char.ofNat 27)
  | ' ' => some ' '
  | '"' => some '"'
  | '/' => some '/'
  | '\\' => some '\\'
  | 'N' => some '\u0085'
  | '_' => some '\u00A0'
  | 'L' => some '\u2028'
  | 'P' => some '\u2029'
  | _ => none

/-- The number of hexadecimal digits of an escape by number. -/
def escapeLength? : Char → Option Nat
  | 'x' => some 2
  | 'u' => some 4
  | 'U' => some 8
  | _ => none

def hexNumber? (digits : List Char) : Option Nat :=
  digits.foldlM (fun n d => (Text.hexValue? d).map (n * 16 + ·)) 0

/-- An escape whose backslash stands here: its character, and the cursor behind it. -/
def scanEscape (c : Cursor) : Option (Char × Cursor) := do
  let letter ← c.at? 1
  match escapeLength? letter with
  | none => do
    let x ← shortEscape? letter
    pure (x, c.skip 2)
  | some count =>
    let c := c.skip 2
    let digits := c.rest.take count
    if digits.length < count then none
    else
      let n ← hexNumber? digits
      if (0xD800 ≤ n && n ≤ 0xDFFF) || 0x10FFFF < n then none
      else pure (Char.ofNat n, c.skip count)

/-- The characters of a quoted scalar up to a gap or its closing quote, and whether an escaped
line break ended them. -/
def quotedRun (single : Bool) : Nat → List Char → Cursor → Option (List Char × Bool × Cursor)
  | 0, _, _ => none
  | fuel + 1, text, c =>
    if c.isGapAt 0 then some (text, false, c)
    else if single && c.isAt 0 '\'' && c.isAt 1 '\'' then
      quotedRun single fuel (text ++ ['\'']) (c.skip 2)
    else if c.isAt 0 (if single then '\'' else '"') then some (text, false, c)
    else if !single && c.isAt 0 '\\' then
      if c.has 1 isBreak then some (text, true, (c.skip 1).readBreak.2)
      else do
        let (x, c) ← scanEscape c
        quotedRun single fuel (text ++ [x]) c
    else
      match c.at? 0 with
      | some x => quotedRun single fuel (text ++ [x]) (c.skip 1)
      | none => none

/-- The rest of a quoted scalar whose characters so far are `text`. -/
def scanQuotedFrom (single : Bool) : Nat → List Char → Cursor → Option (List Char × Cursor)
  | 0, _, _ => none
  | fuel + 1, text, c => do
    if c.isDocumentMarker || c.rest.isEmpty then none
    else
      let (run, broken, c) ← quotedRun single (c.rest.length + 1) [] c
      let text := text ++ run
      if c.isAt 0 (if single then '\'' else '"') then some (text, c.skip 1)
      else
        let (gap, c) ← Gap.scan none (c.rest.length + 1) { Gap.none with broken := broken } c
        scanQuotedFrom single fuel (text ++ gap.text) c

def scanQuoted (single : Bool) (c : Cursor) : Option (Token × Cursor) := do
  let (text, c) ← scanQuotedFrom single (c.rest.length + 1) [] (c.skip 1)
  pure (.scalar (String.ofList text) (if single then .singleQuoted else .doubleQuoted), c)

/-! ## Block scalars -/

/-- What becomes of the line breaks at the end of a block scalar. -/
inductive Chomping where
  | strip
  | clip
  | keep
  deriving DecidableEq

def chomping? (c : Cursor) : Option Chomping :=
  if c.isAt 0 '+' then some .keep else if c.isAt 0 '-' then some .strip else none

/-- The digit of the indentation, if it stands here. -/
def increment? (c : Cursor) : Option Nat :=
  match c.at? 0 with
  | some x => if x.isDigit then some (x.toNat - '0'.toNat) else none
  | none => none

/-- The signs behind the indicator of a block scalar, in either order. A digit of zero is
malformed. -/
def scanBlockHeader (c : Cursor) : Option (Chomping × Nat × Cursor) :=
  match chomping? c, increment? c with
  | some chomping, _ =>
    let c := c.skip 1
    match increment? c with
    | some 0 => none
    | some n => some (chomping, n, c.skip 1)
    | none => some (chomping, 0, c)
  | none, some 0 => none
  | none, some n =>
    let c := c.skip 1
    match chomping? c with
    | some chomping => some (chomping, n, c.skip 1)
    | none => some (.clip, n, c)
  | none, none => some (.clip, 0, c)

/-- The indentation and the empty lines of a block scalar: the breaks passed, the deepest column
reached, and the cursor behind them. An `indent` of zero is not yet known. -/
def scanBlockGap (indent : Nat) :
    Nat → Nat → List Char → Cursor → Option (Nat × List Char × Cursor)
  | 0, _, _, _ => none
  | fuel + 1, deepest, breaks, c =>
    let spaces := (c.rest.takeWhile (· == ' ')).length
    let c := c.skip (if indent = 0 then spaces else min spaces (indent - c.column))
    let deepest := max deepest c.column
    if (indent = 0 || c.column < indent) && c.isAt 0 '\t' then none
    else if c.has 0 isBreak then
      let (text, c) := c.readBreak
      scanBlockGap indent fuel deepest (breaks ++ text) c
    else some (deepest, breaks, c)

/-- The indentation of a block scalar, settled by its first lines if it was not given. -/
def settleIndent (parent : Int) (indent deepest : Nat) : Nat :=
  if indent = 0 then max (max deepest (parent + 1).toNat) 1 else indent

/-- The lines of a block scalar from here on: its text so far, the break that ended the last
line, the empty lines behind it, and whether that line began with a blank. -/
def scanBlockLines (literal : Bool) (indent : Nat) :
    Nat → List Char → List Char → List Char → Bool → Cursor →
      Option (List Char × List Char × List Char × Cursor)
  | 0, _, _, _, _, _ => none
  | fuel + 1, text, lastBreak, breaks, blankBefore, c => do
    if c.column ≠ indent || c.rest.isEmpty then some (text, lastBreak, breaks, c)
    else
      let blankHere := c.has 0 isBlank
      let joint :=
        if !literal && lastBreak.head? == some '\n' && !blankBefore && !blankHere then
          if breaks.isEmpty then [' '] else []
        else lastBreak
      let line := c.rest.takeWhile fun x => !isBreak x
      let (lastBreak, c) := (c.skip line.length).readBreak
      let (_, newBreaks, c) ← scanBlockGap indent (c.rest.length + 1) 0 [] c
      scanBlockLines literal indent fuel (text ++ joint ++ breaks ++ line) lastBreak newBreaks
        blankHere c

/-- A block scalar whose indicator stands here, inside a block indented to `parent`. -/
def scanBlock (literal : Bool) (parent : Int) (c : Cursor) : Option (Token × Cursor) := do
  let (chomping, increment, c) ← scanBlockHeader (c.skip 1)
  let c := (c.skipWhile isBlank).skipComment
  if !c.isLineEnd then none
  else
    let (_, c) := c.readBreak
    let given := if increment = 0 then 0 else (max parent 0).toNat + increment
    let (deepest, breaks, c) ← scanBlockGap given (c.rest.length + 1) 0 [] c
    let indent := settleIndent parent given deepest
    let (text, lastBreak, breaks, c) ←
      scanBlockLines literal indent (c.rest.length + 1) [] [] breaks false c
    let text := if chomping = .strip then text else text ++ lastBreak
    let text := if chomping = .keep then text ++ breaks else text
    pure (.scalar (String.ofList text) (if literal then .literal else .folded), c)

end WsGateway.Yaml
