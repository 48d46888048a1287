import WsGateway.Yaml.Event

/-!
# YAML documents

The tree that the events of a document describe. Where the events stop early the tree holds a
broken node, so that what stands before the malformed place can still be looked at.
-/

namespace WsGateway.Yaml

inductive Node where
  | scalar (s : Scalar)
  | list (items : List Node)
  | map (pairs : List (Node × Node))
  /-- A reference to the node of an anchor. -/
  | alias (target : Nat)
  /-- Nothing was written. -/
  | nothing
  /-- The text is malformed here. -/
  | broken
  deriving Inhabited

/-- The node of an anchor: the number that aliases name it by, and its place among all anchors
of the document. -/
structure Anchored where
  number : Nat
  place : Nat
  node : Node

/-- A document: its tree, its anchors, and whether its text is well formed and holds nothing
else. -/
structure Document where
  root : Node
  anchors : List Anchored
  sound : Bool

namespace Document

/-- The node that an alias of the number stands for: of several anchors with the number, the one
that comes last. -/
def target (d : Document) (number : Nat) : Node :=
  let found := d.anchors.foldl
    (fun (best : Option Anchored) a =>
      if a.number ≠ number then best
      else
        match best with
        | none => some a
        | some b => if b.place < a.place then some a else some b)
    none
  (found.map Anchored.node).getD .broken

/-- The node itself, or the one that it refers to. -/
def resolve (d : Document) : Node → Node
  | .alias number => d.target number
  | node => node

end Document

/-- The events that are left, the numbers of the anchors by name, and the anchors so far. -/
structure Composition where
  events : List Event
  names : List (String × Nat)
  started : Nat
  anchors : List Anchored

namespace Composition

/-- An anchor starts here, if a name is given: its number is the count of names before it. -/
def start (c : Composition) (anchor : Option String) : Option (Nat × Nat) × Composition :=
  match anchor with
  | none => (none, c)
  | some name =>
    let number := c.names.length
    let names :=
      if (c.names.lookup name).isSome then
        c.names.map fun (n, old) => if n = name then (n, number) else (n, old)
      else (name, number) :: c.names
    (some (number, c.started), { c with names := names, started := c.started + 1 })

def finish (c : Composition) (mark : Option (Nat × Nat)) (node : Node) : Node × Composition :=
  match mark with
  | none => (node, c)
  | some (number, place) => (node, { c with anchors := ⟨number, place, node⟩ :: c.anchors })

mutual

/-- The node that the events describe next. -/
def node : Nat → Composition → Node × Composition
  | 0, c => (.broken, { c with events := [] })
  | fuel + 1, c =>
    match c.events with
    | .scalar anchor s :: events =>
      let (mark, c) := { c with events := events }.start anchor
      c.finish mark (.scalar s)
    | .listStart anchor :: events =>
      let (mark, c) := { c with events := events }.start anchor
      let (items, c) := items fuel c
      c.finish mark (.list items)
    | .mapStart anchor :: events =>
      let (mark, c) := { c with events := events }.start anchor
      let (pairs, c) := pairs fuel c
      c.finish mark (.map pairs)
    | .alias name :: events =>
      match c.names.lookup name with
      | some number => (.alias number, { c with events := events })
      | none => (.broken, { c with events := [] })
    | _ => (.broken, { c with events := [] })

def items : Nat → Composition → List Node × Composition
  | 0, c => ([.broken], { c with events := [] })
  | fuel + 1, c =>
    match c.events with
    | .listEnd :: events => ([], { c with events := events })
    | [] => ([.broken], c)
    | _ =>
      let (item, c) := node fuel c
      let (rest, c) := items fuel c
      (item :: rest, c)

def pairs : Nat → Composition → List (Node × Node) × Composition
  | 0, c => ([(.broken, .broken)], { c with events := [] })
  | fuel + 1, c =>
    match c.events with
    | .mapEnd :: events => ([], { c with events := events })
    | [] => ([(.broken, .broken)], c)
    | _ =>
      let (key, c) := node fuel c
      let (value, c) := node fuel c
      let (rest, c) := pairs fuel c
      ((key, value) :: rest, c)

end

end Composition

def Document.parse (text : String) : Document :=
  match Event.read text with
  | [.streamEnd] => ⟨.nothing, [], true⟩
  | .documentStart :: events =>
    let (root, c) := Composition.node (2 * events.length + 2) ⟨events, [], 0, []⟩
    ⟨root, c.anchors, c.events == [.documentEnd, .streamEnd]⟩
  | _ => ⟨.broken, [], false⟩

end WsGateway.Yaml
