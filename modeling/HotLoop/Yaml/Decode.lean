import HotLoop.Yaml.Node
import HotLoop.Text.Quote
/-!
# HotLoop.Yaml.Decode

The state and the steps shared by every reading of a document's nodes into
values.

A reading collects the values that do not fit, each with its line, and goes
on; a reading that cannot go on halts (`Halt`): the document is at fault (a
tag its text does not fit, base64 that does not decode, an alias met again
inside its own node, or aliasing out of proportion to the document), or the
reader met a value it cannot handle.

Every node read is counted, and so is every node read while an alias is
followed. Once more than 100 of the reads come from aliases, more than 1,000
nodes are read and the share from aliases passes what is allowed (99% up to
400,000 reads, falling evenly to 10% at 4,000,000), the reading halts: a
small text cannot stand for a huge one.

Scalars read through `scalarValue`, which resolves their text under their tag
and decodes `!!binary` base64 text.
-/

namespace HotLoop.Yaml

/-- The state of reading a document into values. -/
structure Reading where
  anchored : Array Node
  /-- The values that did not fit, in document order. -/
  errors : Array String := #[]
  /-- The aliases being followed. -/
  following : List Nat := []
  /-- The fields already set while mappings are merged into a record. -/
  merged : Option (List String) := none
  /-- Nodes read so far, the document itself included. -/
  reads : Nat := 1
  /-- Nodes read while following an alias. -/
  aliasReads : Nat := 0

/-- Why a reading ends before the document does. -/
inductive Halt where
  /-- The document cannot be read, for the reason given. -/
  | fault (problem : String)
  /-- The reading met a fault of the reader itself, a value it cannot
  handle, with the reason. -/
  | crash (reason : String)
  deriving Inhabited, Repr

/-- Reading a document into values; a halt ends it at once. -/
abbrev Decode := EStateM Halt Reading

/-- End the reading: the document cannot be read. -/
def fail {β : Type} (problem : String) : Decode β := throw (.fault problem)

/-! ## Failures -/

/-- Record a failure at a line. -/
def report (line : Nat) (problem : String) : Decode Unit :=
  modify fun r => { r with errors := r.errors.push ("line " ++ toString line ++ ": " ++ problem) }

/-- At most `room` bytes of the characters `cs`; the bytes of a character cut
there show as U+FFFD each. -/
def clipBytes : List Char → Nat → String → String
  | [], _, acc => acc
  | c :: r, room, acc =>
    if c.utf8Size ≤ room then clipBytes r (room - c.utf8Size) (acc.push c)
    else acc ++ String.ofList (List.replicate room '\uFFFD')

/-- The text a failure shows for a value: up to ten bytes as it is, else its
first seven bytes and `...`. -/
def clip (t : String) : String :=
  if t.utf8ByteSize > 10 then clipBytes t.toList 7 "" ++ "..." else t

/-- Report that a node does not fit a value of the type named `ty`. The
node's text follows its tag in backquotes, clipped; under `!!seq` or `!!map`
it follows the tag as it is (a collection has none). -/
def mismatch (n : Node) (ty : String) : Decode Unit :=
  let shown := match n with
    | .scalar _ _ t _ => t
    | _ => ""
  let tag := n.tag
  let what := if tag != "!!seq" && tag != "!!map" then " `" ++ clip shown ++ "`" else shown
  report n.line ("cannot unmarshal " ++ tag ++ what ++ " into " ++ ty)

/-- Report every key that repeats an earlier one of the same kind and text;
whether there was any. -/
def duplicates (entries : List (Node × Node)) : Decode Bool := do
  let keys := (entries.map (·.1)).toArray
  let pairs := (List.range keys.size).flatMap fun i =>
    ((List.range keys.size).filter (i < ·)).map fun j => (keys.getD i default, keys.getD j default)
  let found := pairs.filter fun (a, b) => a.kindIndex == b.kindIndex && a.keyText == b.keyText
  for (a, b) in found do
    report b.line ("mapping key " ++ Text.quote b.keyText ++ " already defined at line " ++ toString a.line)
  return !found.isEmpty

/-- The share of reads an alias may account for after `reads` reads: 99%
up to 400,000 reads, falling evenly to 10% at 4,000,000 and staying there. -/
def allowedAliasShare (reads : Nat) : Float :=
  if reads ≤ 400000 then 0.99
  else if reads ≥ 4000000 then 0.10
  else 0.99 - 0.89 * (Float.ofNat (reads - 400000) / 3600000.0)

/-- Count the read of a node. A document whose reads come mostly from
following aliases (more than 100 of them, more than 1,000 reads in all, and
more than the allowed share) is refused, so that a small text cannot stand
for a huge one. -/
def countRead : Decode Unit := do
  let r ← get
  let reads := r.reads + 1
  let aliasReads := if r.following.isEmpty then r.aliasReads else r.aliasReads + 1
  set { r with reads := reads, aliasReads := aliasReads }
  if aliasReads > 100 && reads > 1000 &&
      Float.ofNat aliasReads / Float.ofNat reads > allowedAliasShare reads then
    fail "document contains excessive aliasing"

/-- Decode `k` with the alias `id` counted as being followed; meeting it again
meanwhile is a failure. -/
def following {β : Type} (id : Nat) (name : String) (k : Decode β) : Decode β := do
  if (← get).following.contains id then fail ("anchor '" ++ name ++ "' value contains itself")
  modify fun r => { r with following := id :: r.following }
  let b ← k
  modify fun r => { r with following := r.following.erase id }
  return b

/-- The anchored node of an entry. -/
def anchoredNode (i : Nat) : Decode Node := do
  return (← get).anchored.getD i default

/-! ## Scalars -/

/-- The value of a base64 digit. -/
def base64Digit (c : Char) : Option Nat :=
  if 'A' ≤ c ∧ c ≤ 'Z' then some (c.toNat - 65)
  else if 'a' ≤ c ∧ c ≤ 'z' then some (c.toNat - 71)
  else if c.isDigit then some (c.toNat + 4)
  else if c = '+' then some 62
  else if c = '/' then some 63
  else none

/-- The bytes of base64 text in groups of four, padded with `=`; line breaks
are ignored. -/
def base64Bytes (s : String) : Option (List UInt8) :=
  let cs := s.toList.filter fun c => c ≠ '\n' ∧ c ≠ '\r'
  let rec groups : List Char → Option (List UInt8)
    | [] => some []
    | a :: b :: c :: d :: rest => do
      let va ← base64Digit a
      let vb ← base64Digit b
      let n := va * 262144 + vb * 4096
      if c = '=' then
        if d ≠ '=' ∨ !rest.isEmpty then none
        else some [(n / 65536).toUInt8]
      else
        let vc ← base64Digit c
        let n := n + vc * 64
        if d = '=' then
          if !rest.isEmpty then none
          else some [(n / 65536).toUInt8, (n / 256 % 256).toUInt8]
        else
          let vd ← base64Digit d
          let n := n + vd
          let more ← groups rest
          some ((n / 65536).toUInt8 :: (n / 256 % 256).toUInt8 :: (n % 256).toUInt8 :: more)
    | _ => none
  groups cs

/-- Text from bytes; a byte that starts no valid character reads as U+FFFD. -/
def lossyText (bytes : List UInt8) : String :=
  let rec go : Nat → List UInt8 → String → String
    | 0, _, acc => acc
    | _, [], acc => acc
    | fuel + 1, b :: rest, acc =>
      let width := if b < 0x80 then 1 else if b / 32 == 6 then 2 else if b / 16 == 14 then 3
        else if b / 8 == 30 then 4 else 0
      match String.fromUTF8? (ByteArray.mk (b :: rest.take (width - 1)).toArray) with
      | some t => if width > 0 then go fuel (rest.drop (width - 1)) (acc ++ t) else go fuel rest (acc.push '\uFFFD')
      | none => go fuel rest (acc.push '\uFFFD')
  go (bytes.length + 1) bytes ""

/-- The tag and value of a scalar node; `!!binary` text is decoded. -/
def scalarValue (tag text : String) : Decode (String × Scalar) := do
  if tag == "!!str" then return ("!!str", .str text)
  match Scalar.resolve tag text with
  | .error e => fail e
  | .ok (t, v) =>
    if t == "!!binary" then
      match base64Bytes text with
      | some bytes => return (t, .str (lossyText bytes))
      | none => fail "!!binary value contains invalid base64 data"
    else return (t, v)

/-- Whether a key is the merge key: a plain `<<`, or one tagged `!!merge`. -/
def isMergeKey : Node → Bool
  | .scalar _ tag text _ => text == "<<" && tag == "!!merge"
  | _ => false

/-- A node read as text, as a field name or a key of a text-keyed mapping
is: a scalar's text (`!!binary` decoded; a null gives none); a collection
does not fit. -/
def keyName : Nat → Node → Decode (Option String)
  | 0, _ => pure none
  | fuel + 1, n => do
    countRead
    match n with
    | .alias _ id name i => following id name do keyName fuel (← anchoredNode i)
    | .scalar _ tag text _ => do
      let (t, v) ← scalarValue tag text
      match v with
      | .null => pure none
      | .str s => pure (some (if t == "!!binary" then s else text))
      | _ => pure (some text)
    | .seq .. => do
      mismatch n "string"
      pure none
    | .map _ _ es => do
      if !(← duplicates es) then mismatch n "string"
      pure none

end HotLoop.Yaml
