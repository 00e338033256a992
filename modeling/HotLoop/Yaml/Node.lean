import HotLoop.Yaml.Event
import HotLoop.Yaml.Scalar
/-!
# HotLoop.Yaml.Node

The tree of a YAML document, built from its events.

Every node keeps its 1-based line and its tag in short form. A scalar
written with a tag keeps that tag (`!` alone counts as none); otherwise a
quoted or block scalar is `!!str`, a plain `<<` is the merge key `!!merge`,
and any other plain scalar takes the tag its text resolves to. Collections
are `!!seq` and `!!map` unless tagged.

An anchored node is kept in the document's table of anchored nodes, and an
alias refers to the entry of the latest anchor of its name; since a
collection's anchor is known before its content, an alias inside a
collection may refer to the collection itself. An alias to a name not yet
anchored is an error. Each alias has its own number, so that reading a
document can tell when it comes back to an alias it is already following.

Only the first document of a text is read; a text with none reads as
nothing.
-/

namespace HotLoop.Yaml

/-- A node of a document. -/
inductive Node where
  | scalar (line : Nat) (tag : String) (text : String) (style : Style)
  | seq (line : Nat) (tag : String) (items : List Node)
  | map (line : Nat) (tag : String) (entries : List (Node × Node))
  /-- The alias number `id` to the anchored node `target`, by its name. -/
  | alias (line : Nat) (id : Nat) (name : String) (target : Nat)
  deriving Inhabited, Repr

namespace Node

/-- The line a node starts on. -/
def line : Node → Nat
  | .scalar l .. | .seq l .. | .map l .. | .alias l .. => l

/-- The tag of a node (none for an alias). -/
def tag : Node → String
  | .scalar _ t .. | .seq _ t _ | .map _ t _ => t
  | .alias .. => ""

/-- The text a node is compared by as a key: a scalar's text, an alias's
name, nothing for a collection. -/
def keyText : Node → String
  | .scalar _ _ t _ => t
  | .alias _ _ n _ => n
  | _ => ""

/-- The kind of a node, as a number: scalar, sequence, mapping, alias. -/
def kindIndex : Node → Nat
  | .scalar .. => 0
  | .seq .. => 1
  | .map .. => 2
  | .alias .. => 3

/-- Whether a node is a mapping. -/
def isMap : Node → Bool
  | .map .. => true
  | _ => false

end Node

/-- A document: its root and its anchored nodes. -/
structure Document where
  root : Node
  anchored : Array Node
  deriving Inhabited

/-- The tag of a scalar node: its own, or the one its style and text give. -/
def scalarTag (tag text : String) (style : Style) : String :=
  if tag ≠ "" ∧ tag ≠ "!" then shortTag tag
  else if style ≠ .plain then "!!str"
  else if text = "<<" then "!!merge"
  else Scalar.tagOf text

/-- The tag of a collection node: its own, or `standard`. -/
def collectionTag (tag standard : String) : String :=
  if tag ≠ "" ∧ tag ≠ "!" then shortTag tag else standard

/-- The state of building a document. -/
structure Composer where
  events : EventReader
  /-- The event read but not yet used. -/
  current : Option Event := none
  /-- The anchors met so far, latest first, with their entries. -/
  anchors : List (String × Nat) := []
  anchored : Array Node := #[]
  aliases : Nat := 0
  deriving Inhabited

/-- Building a document: a failure ends it. -/
abbrev Compose := EStateM Fault Composer

namespace Compose

/-- Run a step of the event reader. -/
def reading {α : Type} (x : Events α) : Compose α := fun c =>
  let r := c.events
  let c := { c with events := default }
  match x r with
  | .ok a r => .ok a { c with events := r }
  | .error e r => .error e { c with events := r }

/-- The next event. -/
def peek : Compose Event := do
  match (← get).current with
  | some e => pure e
  | none =>
    let e ← reading Events.next
    modify fun c => { c with current := some e }
    pure e

/-- Use up the next event. -/
def take : Compose Unit := modify fun c => { c with current := none }

/-- An entry for the node of an anchor, if there is one. -/
def reserve (anchor : String) : Compose (Option Nat) := do
  if anchor.isEmpty then return none
  let c ← get
  let i := c.anchored.size
  set { c with anchored := c.anchored.push default, anchors := (anchor, i) :: c.anchors }
  return some i

/-- Keep a finished node in its anchor's entry. -/
def fill (slot : Option Nat) (n : Node) : Compose Unit :=
  match slot with
  | some i => modify fun c => { c with anchored := c.anchored.modify i (fun _ => n) }
  | none => pure ()

mutual

/-- The node that starts at the next event. -/
def node : Nat → Compose Node
  | 0 => throw (.building "document nests too deeply")
  | fuel + 1 => do
    let e ← peek
    let line := e.start.line + 1
    match e.kind with
    | .scalar anchor tag text style =>
      let n := Node.scalar line (scalarTag tag text style) text style
      fill (← reserve anchor) n
      take
      return n
    | .alias name =>
      match (← get).anchors.lookup name with
      | none => throw (.building ("unknown anchor '" ++ name ++ "' referenced"))
      | some i =>
        let id := (← get).aliases
        modify fun c => { c with aliases := c.aliases + 1 }
        take
        return .alias line id name i
    | .sequenceStart anchor tag _ =>
      let slot ← reserve anchor
      take
      let items ← items fuel #[]
      take
      let n := Node.seq line (collectionTag tag "!!seq") items.toList
      fill slot n
      return n
    | .mappingStart anchor tag _ =>
      let slot ← reserve anchor
      take
      let entries ← entries fuel #[]
      take
      let n := Node.map line (collectionTag tag "!!map") entries.toList
      fill slot n
      return n
    | _ => throw (.building "unexpected event")

/-- The items of a sequence, up to its end. -/
def items : Nat → Array Node → Compose (Array Node)
  | 0, acc => pure acc
  | fuel + 1, acc => do
    if (← peek).kind == .sequenceEnd then return acc
    let n ← node fuel
    items fuel (acc.push n)

/-- The pairs of a mapping, up to its end. -/
def entries : Nat → Array (Node × Node) → Compose (Array (Node × Node))
  | 0, acc => pure acc
  | fuel + 1, acc => do
    if (← peek).kind == .mappingEnd then return acc
    let k ← node fuel
    let v ← node fuel
    entries fuel (acc.push (k, v))

end

/-- The first document of the stream, if there is one. -/
def firstDocument : Compose (Option Document) := do
  let _ ← peek
  take
  match (← peek).kind with
  | .documentStart =>
    take
    let fuel := 8 * (← get).events.lexer.text.size + 64
    let root ← node fuel
    let _ ← peek
    take
    return some ⟨root, (← get).anchored⟩
  | _ => return none

end Compose

/-- The first document of a YAML text, or nothing if it has none. -/
def Document.read (text : String) : Except Fault (Option Document) :=
  match Compose.firstDocument.run { events := { lexer := Lexer.ofText text } } with
  | .ok d _ => .ok d
  | .error e _ => .error e

end HotLoop.Yaml
