import WsGateway.Yaml.Token.Scan

/-!
# YAML events

What a YAML text says, as a sequence: scalars, aliases, and the starts and ends of lists, maps
and documents. `Event.read` gives the events of a text up to the first malformed place.
-/

namespace WsGateway.Yaml

/-- A scalar with its tag, if it has one. -/
structure Scalar where
  text : String
  style : Style
  tag : Option Text.Octets
  deriving DecidableEq, Repr

inductive Event where
  | documentStart
  | documentEnd
  | streamEnd
  | alias (name : String)
  | scalar (anchor : Option String) (s : Scalar)
  | listStart (anchor : Option String)
  | listEnd
  | mapStart (anchor : Option String)
  | mapEnd
  deriving DecidableEq, Repr

/-- What the tokens that follow are part of. -/
inductive Expect where
  | document (first : Bool)
  | documentBody
  | documentEnd
  | node
  | blockEntry
  | indentlessEntry
  | blockKey
  | blockValue
  | flowEntry (first : Bool)
  | pairKey
  | pairValue
  | pairEnd
  | flowKey (first : Bool)
  | flowValue
  | emptyFlowValue
  deriving DecidableEq, Repr

/-- The place in a sequence of tokens: what is expected now, what around it afterwards, and the
handles of tags in force. -/
structure Grammar where
  tokens : List Token
  expect : Expect
  around : List Expect
  tags : List (String × Text.Octets)

namespace Grammar

def start (tokens : List Token) : Grammar := ⟨tokens, .document true, [], []⟩

def next (g : Grammar) : Grammar := { g with tokens := g.tokens.tail }

def expecting (g : Grammar) (e : Expect) : Grammar := { g with expect := e }

/-- The place where `e` is expected, and what was expected around it comes after that. -/
def leave (g : Grammar) : Grammar :=
  match g.around with
  | e :: around => { g with expect := e, around := around }
  | [] => g

/-- The place with `e` to come after the next node. -/
def thereafter (g : Grammar) (e : Expect) : Grammar := { g with around := e :: g.around }

def emptyScalar : Event := .scalar none ⟨"", .plain, none⟩

/-- An unwritten scalar, after which `e` is expected. -/
def empty (g : Grammar) (e : Expect) : Option (Event × Grammar) :=
  some (emptyScalar, g.expecting e)

def fullTag? (g : Grammar) (handle : String) (suffix : Text.Octets) : Option Text.Octets :=
  if handle.isEmpty then some suffix
  else
    match g.tags.lookup handle with
    | some target => some (target ++ suffix)
    | none =>
      if handle = "!" then some (Text.octets "!" ++ suffix)
      else if handle = "!!" then some (Text.octets "tag:yaml.org,2002:" ++ suffix)
      else none

/-- The anchor and the tag before a node, in either order, and the place behind them. -/
def properties (g : Grammar) : Option (Option String × Option Text.Octets × Grammar) :=
  match g.tokens with
  | .anchor a :: .tag h t :: _ => do
    let tag ← g.fullTag? h t
    pure (some a, some tag, g.next.next)
  | .tag h t :: .anchor a :: _ => do
    let tag ← g.fullTag? h t
    pure (some a, some tag, g.next.next)
  | .anchor a :: _ => some (some a, none, g.next)
  | .tag h t :: _ => do
    let tag ← g.fullTag? h t
    pure (none, some tag, g.next)
  | _ => some (none, none, g)

/-- A node; blocks may start here, and lists without indentation too, as the flags say. -/
def node (block indentless : Bool) (g : Grammar) : Option (Event × Grammar) :=
  match g.tokens with
  | .alias name :: _ => some (.alias name, g.next.leave)
  | _ => do
    let (anchor, tag, g) ← g.properties
    match g.tokens with
    | [] => none
    | t :: _ =>
      match t with
      | .blockEntry =>
        if indentless then pure (.listStart anchor, g.expecting .indentlessEntry)
        else if anchor.isSome || tag.isSome then
          pure (.scalar anchor ⟨"", .plain, tag⟩, g.leave)
        else none
      | .scalar text style =>
        -- The tag `!` stands for no tag.
        let tag := if tag = some (Text.octets "!") then none else tag
        pure (.scalar anchor ⟨text, style, tag⟩, g.next.leave)
      | .flowSequenceStart => pure (.listStart anchor, g.next.expecting (.flowEntry true))
      | .flowMappingStart => pure (.mapStart anchor, g.next.expecting (.flowKey true))
      | .blockSequenceStart =>
        if block then pure (.listStart anchor, g.next.expecting .blockEntry)
        else if anchor.isSome || tag.isSome then
          pure (.scalar anchor ⟨"", .plain, tag⟩, g.leave)
        else none
      | .blockMappingStart =>
        if block then pure (.mapStart anchor, g.next.expecting .blockKey)
        else if anchor.isSome || tag.isSome then
          pure (.scalar anchor ⟨"", .plain, tag⟩, g.leave)
        else none
      | _ =>
        if anchor.isSome || tag.isSome then
          pure (.scalar anchor ⟨"", .plain, tag⟩, g.leave)
        else none

/-- The directives before a document. The first argument bounds their number. -/
def directives : Nat → Bool → Grammar → Option Grammar
  | 0, _, _ => none
  | fuel + 1, versioned, g =>
    match g.tokens with
    | .versionDirective major minor :: _ =>
      if versioned || major ≠ 1 || (minor ≠ 1 && minor ≠ 2) then none
      else directives fuel true g.next
    | .tagDirective handle target :: _ =>
      if (g.tags.lookup handle).isSome then none
      else directives fuel versioned { g.next with tags := (handle, target) :: g.tags }
    | _ => some g

/-- The start of a document or the end of the stream. Only the first document may start without
its marker. -/
def document (first : Bool) (g : Grammar) : Option (Event × Grammar) := do
  let g := if first then g else { g with tokens := g.tokens.dropWhile (· = .documentEnd) }
  match g.tokens with
  | [] => none
  | .streamEnd :: _ => pure (.streamEnd, g.next)
  | t :: _ =>
    let marked := match t with
      | .versionDirective _ _ | .tagDirective _ _ | .documentStart => true
      | _ => false
    if first && !marked then
      pure (.documentStart, { g with expect := .node, around := [.documentEnd] })
    else
      let g ← directives (g.tokens.length + 1) false { g with tags := [] }
      match g.tokens with
      | .documentStart :: _ =>
        pure (.documentStart, { g.next with expect := .documentBody, around := [.documentEnd] })
      | _ => none

/-- The next event and the place behind it; nothing at a malformed place. -/
def step (g : Grammar) : Option (Event × Grammar) :=
  match g.expect with
  | .document first => g.document first
  | .node => g.node true false
  | .documentBody =>
    match g.tokens with
    | [] => none
    | .versionDirective _ _ :: _ | .tagDirective _ _ :: _ | .documentStart :: _
    | .documentEnd :: _ | .streamEnd :: _ => some (emptyScalar, g.leave)
    | _ => g.node true false
  | .documentEnd =>
    match g.tokens with
    | [] => none
    | .documentEnd :: _ => some (.documentEnd, g.next.expecting (.document false))
    | _ => some (.documentEnd, g.expecting (.document false))
  | .blockEntry =>
    match g.tokens with
    | [.blockEntry] => none
    | .blockEntry :: .blockEntry :: _ | .blockEntry :: .blockEnd :: _ => g.next.empty .blockEntry
    | .blockEntry :: _ => (g.next.thereafter .blockEntry).node true false
    | .blockEnd :: _ => some (.listEnd, g.next.leave)
    | _ => none
  | .indentlessEntry =>
    match g.tokens with
    | [] => none
    | [.blockEntry] => none
    | .blockEntry :: .blockEntry :: _ | .blockEntry :: .key :: _ | .blockEntry :: .value :: _
    | .blockEntry :: .blockEnd :: _ => g.next.empty .indentlessEntry
    | .blockEntry :: _ => (g.next.thereafter .indentlessEntry).node true false
    | _ => some (.listEnd, g.leave)
  | .blockKey =>
    match g.tokens with
    | [.key] => none
    | .key :: .key :: _ | .key :: .value :: _ | .key :: .blockEnd :: _ => g.next.empty .blockValue
    | .key :: _ => (g.next.thereafter .blockValue).node true true
    | .blockEnd :: _ => some (.mapEnd, g.next.leave)
    | _ => none
  | .blockValue =>
    match g.tokens with
    | [] => none
    | [.value] => none
    | .value :: .key :: _ | .value :: .value :: _ | .value :: .blockEnd :: _ =>
      g.next.empty .blockKey
    | .value :: _ => (g.next.thereafter .blockKey).node true true
    | _ => g.empty .blockKey
  | .flowEntry first =>
    -- A key inside a sequence begins a mapping with one pair.
    let entry (g : Grammar) : Option (Event × Grammar) :=
      match g.tokens with
      | [] => none
      | .flowSequenceEnd :: _ => some (.listEnd, g.next.leave)
      | .key :: _ => some (.mapStart none, g.next.expecting .pairKey)
      | _ => (g.thereafter (.flowEntry false)).node false false
    match g.tokens with
    | .flowSequenceEnd :: _ => some (.listEnd, g.next.leave)
    | .flowEntry :: _ => if first then entry g else entry g.next
    | _ => if first then entry g else none
  | .pairKey =>
    match g.tokens with
    | [] => none
    | .value :: _ | .flowEntry :: _ | .flowSequenceEnd :: _ => g.next.empty .pairValue
    | _ => (g.thereafter .pairValue).node false false
  | .pairValue =>
    match g.tokens with
    | [] => none
    | [.value] => none
    | .value :: .flowEntry :: _ | .value :: .flowSequenceEnd :: _ => g.next.empty .pairEnd
    | .value :: _ => (g.next.thereafter .pairEnd).node false false
    | _ => g.empty .pairEnd
  | .pairEnd =>
    if g.tokens.isEmpty then none else some (.mapEnd, g.expecting (.flowEntry false))
  | .flowKey first =>
    -- Without the mark of a key the node is a key whose value is missing.
    let key (g : Grammar) : Option (Event × Grammar) :=
      match g.tokens with
      | [] => none
      | [.key] => none
      | .flowMappingEnd :: _ => some (.mapEnd, g.next.leave)
      | .key :: .value :: _ | .key :: .flowEntry :: _ | .key :: .flowMappingEnd :: _ =>
        g.next.empty .flowValue
      | .key :: _ => (g.next.thereafter .flowValue).node false false
      | _ => (g.thereafter .emptyFlowValue).node false false
    match g.tokens with
    | .flowMappingEnd :: _ => some (.mapEnd, g.next.leave)
    | .flowEntry :: _ => if first then key g else key g.next
    | _ => if first then key g else none
  | .flowValue =>
    match g.tokens with
    | [] => none
    | [.value] => none
    | .value :: .flowEntry :: _ | .value :: .flowMappingEnd :: _ => g.next.empty (.flowKey false)
    | .value :: _ => (g.next.thereafter (.flowKey false)).node false false
    | _ => g.empty (.flowKey false)
  | .emptyFlowValue => if g.tokens.isEmpty then none else g.empty (.flowKey false)

def events : Nat → Grammar → List Event
  | 0, _ => []
  | fuel + 1, g =>
    match g.step with
    | none => []
    | some (.streamEnd, _) => [.streamEnd]
    | some (e, g) => e :: events fuel g

end Grammar

/-- The events of a text up to the first malformed place; they end in the end of the stream if
there is none. -/
def Event.read (text : String) : List Event :=
  let tokens := (Token.scan text).1
  match tokens with
  | .streamStart :: tokens => (Grammar.start tokens).events (6 * tokens.length + 16)
  | _ => []

end WsGateway.Yaml
