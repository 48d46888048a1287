import WsGateway.Yaml.Scalar

/-!
# Decoding YAML documents

Readers of nodes for the types that a configuration is made of. A record takes its fields in
any order; a name that is not a field, and a field given twice, are refused.
-/

namespace WsGateway.Yaml

/-- Why a document was refused: its text is malformed, or the data at a place does not fit. The
place of the whole document has no name. -/
inductive Trouble where
  | malformed
  | data (place : Option String) (text : String)
  deriving DecidableEq, Repr

namespace Trouble

/-- The wording of a trouble with the data. -/
def text? : Trouble → Option String
  | .malformed => none
  | .data none text => some text
  | .data (some place) text => some (place ++ ": " ++ text)

end Trouble

abbrev Decoder (α : Type) := Document → Option String → Node → Except Trouble α

def fieldPlace (place : Option String) (name : String) : Option String :=
  match place with
  | none => some name
  | some p => some (p ++ "." ++ name)

def itemPlace (place : Option String) (index : Nat) : Option String :=
  some (place.getD "." ++ "[" ++ toString index ++ "]")

/-- The refusal of a node that is not of the expected kind. -/
def refusal (place : Option String) (expected : String) : Node → Trouble
  | .scalar s =>
    match s.meaning with
    | .ok m => .data place ("invalid type: " ++ m.describe ++ ", expected " ++ expected)
    | .error wanted =>
      .data place ("invalid value: " ++ (Meaning.text s.text).describe ++ ", expected " ++ wanted)
  | .list _ => .data place ("invalid type: sequence, expected " ++ expected)
  | .map _ => .data place ("invalid type: map, expected " ++ expected)
  | .alias _ | .nothing | .broken => .malformed

namespace Decoder

def string : Decoder String := fun d place node =>
  match d.resolve node with
  | .scalar s => .ok s.text
  | node => .error (refusal place "a string" node)

def bool : Decoder Bool := fun d place node =>
  match d.resolve node with
  | .scalar s =>
    match (if s.isOpenTo boolTag then bool? s.text else none) with
    | some b => .ok b
    | none => .error (refusal place "a boolean" (.scalar s))
  | node => .error (refusal place "a boolean" node)

/-- An unsigned number of 64 bits; `expected` names the type. -/
def uint64 (expected : String) : Decoder UInt64 := fun d place node =>
  match d.resolve node with
  | .scalar s =>
    match (if s.isOpenTo intTag then uint64? s.text else none) with
    | some n => .ok (UInt64.ofNat n)
    | none => .error (refusal place expected (.scalar s))
  | node => .error (refusal place expected node)

def uint32 : Decoder UInt32 := fun d place node => do
  let n ← uint64 "u32" d place node
  if n.toNat < 4294967296 then pure (UInt32.ofNat n.toNat)
  else
    .error (.data place
      ("invalid value: " ++ (Meaning.integer n.toNat).describe ++ ", expected u32"))

/-- The items of a list, each read by `item`, from the index on. -/
def itemsFrom {α : Type} (item : Decoder α) (d : Document) (place : Option String) :
    Nat → List Node → Except Trouble (List α)
  | _, [] => .ok []
  | index, node :: rest => do
    let a ← item d (itemPlace place index) node
    let as ← itemsFrom item d place (index + 1) rest
    pure (a :: as)

def list {α : Type} (item : Decoder α) : Decoder (List α) := fun d place node =>
  match d.resolve node with
  | .list nodes => itemsFrom item d place 0 nodes
  | .nothing => .ok []
  | .scalar s => if s.isEmpty then .ok [] else .error (refusal place "a sequence" (.scalar s))
  | node => .error (refusal place "a sequence" node)

end Decoder

/-- A field of a record: its name, and how a node changes the record. -/
structure KeyDecoder (σ : Type) where
  name : String
  read : Document → Option String → Node → σ → Except Trouble σ

/-- The field that `decoder` reads and `set` puts into the record. -/
def field {σ α : Type} (name : String) (decoder : Decoder α) (set : σ → α → σ) : KeyDecoder σ :=
  ⟨name, fun d place node s => do
    let a ← decoder d place node
    pure (set s a)⟩

def nameList (names : List String) : String :=
  let ticked := names.map fun n => "`" ++ n ++ "`"
  match ticked with
  | [] => "there are no fields"
  | [a] => "expected " ++ a
  | [a, b] => "expected " ++ a ++ " or " ++ b
  | more => "expected one of " ++ String.intercalate ", " more

/-- The pairs of a map read into a record. `seen` holds the names of the fields before. -/
def readFields {σ : Type} (fields : List (KeyDecoder σ)) (d : Document) (place : Option String) :
    List String → σ → List (Node × Node) → Except Trouble (σ × List String)
  | seen, s, [] => .ok (s, seen)
  | seen, s, (key, value) :: rest =>
    match d.resolve key with
    | .scalar k =>
      match fields.find? (·.name == k.text) with
      | none =>
        .error (.data place
          ("unknown field `" ++ k.text ++ "`, " ++ nameList (fields.map KeyDecoder.name)))
      | some f =>
        if seen.contains f.name then .error (.data place ("duplicate field `" ++ f.name ++ "`"))
        else do
          let inner := match key with
            | .scalar _ => f.name
            | _ => "?"
          let s ← f.read d (fieldPlace place inner) value s
          readFields fields d place (f.name :: seen) s rest
    | node => .error (refusal place "field identifier" node)

/-- A record whose fields start out as in `start`, with the names of the fields that were given;
nothing written is a record without fields. -/
def readRecord {σ : Type} (name : String) (fields : List (KeyDecoder σ)) (start : σ) :
    Decoder (σ × List String) := fun d place node =>
  match d.resolve node with
  | .map pairs => readFields fields d place [] start pairs
  | .nothing => .ok (start, [])
  | .scalar s =>
    if s.isEmpty then .ok (start, [])
    else .error (refusal place ("struct " ++ name) (.scalar s))
  | node => .error (refusal place ("struct " ++ name) node)

/-- A record all of whose fields may be missing. -/
def record {σ : Type} (name : String) (fields : List (KeyDecoder σ)) (start : σ) : Decoder σ :=
  fun d place node => do
    let (s, _) ← readRecord name fields start d place node
    pure s

/-- What `decoder` reads from the only document of a text. -/
def decode {α : Type} (decoder : Decoder α) (text : String) : Except Trouble α := do
  let d := Document.parse text
  let a ← decoder d none d.root
  if d.sound then pure a else .error .malformed

end WsGateway.Yaml
