import HotLoop.Yaml.Decode
/-!
# HotLoop.Yaml.Value

Nodes read as values of any type: a scalar as what its text resolves to, a
sequence as the list of its items, a mapping as its entries.

This is how the keys of a mapping with a merge key are read, to know which
fields the merge must leave alone: they form the *merged set*, which counts
as text only the keys that are text. A list or a mapping read there cannot be
looked up in the set, and the reader crashes (`Halt.crash`), after the key
itself has been read. Reading halts the same way in the entries of a
mapping read while the set is being gathered: its keys join the set, and an
entry whose key is already there is left out.

Elsewhere, a mapping key that is a list or a mapping is refused as
`invalid map key:` with the key written as a typed literal (`Value.literal`).
Inside a mapping whose own keys are all written as text, keys are read as
text. A mapping with duplicate keys gives no value, an item or entry that
gives none is left out, and a mapping's own merge key merges into it the way
records merge (`mergeInto`).
-/

namespace HotLoop.Yaml

/-- A node read as a value of any type. -/
inductive Value where
  /-- A scalar with its text, and what the text resolves to. -/
  | scalar (text : String) (v : Scalar)
  | list (items : List Value)
  /-- A mapping, its keys text when `textKeys`; entries in key order
  (`keyBefore`), one for each key. -/
  | dict (textKeys : Bool) (entries : List (Value × Value))
  deriving Inhabited

/-- The rank of a scalar's kind in the order keys are listed in. -/
def Scalar.rank : Scalar → Nat
  | .null => 0
  | .bool _ => 1
  | .int _ => 2
  | .uint _ => 3
  | .float _ => 4
  | .str _ => 5
  | .timestamp => 6

/-- A scalar as a typed literal: null is an empty interface, integers above
the signed range are written in hex, text is quoted. -/
def Scalar.literal (text : String) : Scalar → String
  | .null => "interface \x7b\x7d(nil)"
  | .bool b => if b then "true" else "false"
  | .int n => toString n
  | .uint n => "0x" ++ String.ofList (Nat.toDigits 16 n)
  | .float x => x.text
  | .str s => Text.quote s
  | .timestamp => text

namespace Value

/-- Whether a value is a list or a mapping. -/
def isCollection : Value → Bool
  | .scalar .. => false
  | _ => true

/-- The text of a value that is text. -/
def name? : Value → Option String
  | .scalar _ (.str s) => some s
  | _ => none

/-- Whether key `a` is listed before key `b`: by the kind of scalar, then by
value (text by code points, numbers by size, a NaN first), timestamps by
their text. -/
def keyBefore : Value → Value → Bool
  | .scalar s a, .scalar t b =>
    if a.rank != b.rank then a.rank < b.rank
    else match a, b with
      | .bool x, .bool y => !x && y
      | .int x, .int y => x < y
      | .uint x, .uint y => x < y
      | .float x, .float y => x.lt y || (x.isNaN && !y.isNaN)
      | .str x, .str y => x < y
      | _, _ => s < t
  | _, _ => false

/-- Set a key of entries in key order: the key's old entry, if any, is
replaced. -/
def insertEntry (k v : Value) : List (Value × Value) → List (Value × Value)
  | [] => [(k, v)]
  | (k', v') :: rest =>
    if keyBefore k k' then (k, v) :: (k', v') :: rest
    else if keyBefore k' k then (k', v') :: insertEntry k v rest
    else (k, v) :: rest

mutual

/-- A value as a typed literal: lists and mappings name their type, then
list their items or their `key:value` entries. -/
def literal : Value → String
  | .scalar text v => v.literal text
  | .list items => "[]interface \x7b\x7d\x7b" ++ literals items ++ "\x7d"
  | .dict textKeys es =>
    (if textKeys then "map[string]interface \x7b\x7d\x7b" else "map[interface \x7b\x7d]interface \x7b\x7d\x7b") ++
      entryLiterals es ++ "\x7d"

/-- Items as literals, separated by `, `. -/
def literals : List Value → String
  | [] => ""
  | v :: vs => v.literal ++ (if vs.isEmpty then "" else ", ") ++ literals vs

/-- Entries as `key:value` literals, separated by `, `. -/
def entryLiterals : List (Value × Value) → String
  | [] => ""
  | (k, v) :: es => k.literal ++ ":" ++ v.literal ++ (if es.isEmpty then "" else ", ") ++ entryLiterals es

end

end Value

/-- Note a key in the merged set `names`: whether it was there already, and
the set with it. A list or a mapping cannot be looked up: the reader
crashes. -/
def noteKey (key : Value) (names : List String) : Decode (Bool × List String) := do
  if key.isCollection then throw (.crash "a collection cannot be a key of the merged set")
  match key.name? with
  | some s => if names.contains s then return (true, names) else return (false, names ++ [s])
  | none => return (false, names)

/-- Whether a mapping key is written as text (or is the merge key), seen
through an alias. -/
def isTextKey (k : Node) : Decode Bool := do
  let t ← match k with
    | .alias _ _ _ i => do pure (← anchoredNode i).tag
    | k => pure k.tag
  return t == "!!str" || t == "!!merge"

mutual

/-- Read a node as a value of any type; `none` if it gives none. -/
def loose : Nat → Node → Decode (Option Value)
  | 0, _ => pure none
  | fuel + 1, n => do
    countRead
    match n with
    | .alias _ id name i => following id name do loose fuel (← anchoredNode i)
    | .scalar _ tag text _ => do
      let (_, v) ← scalarValue tag text
      return some (.scalar text v)
    | .seq _ _ items => return some (.list (← items.filterMapM (loose fuel)))
    | .map _ _ es => do
      if ← duplicates es then return none
      let textKeys ← es.allM fun (k, _) => isTextKey k
      return some (.dict textKeys (← entries fuel textKeys es []))

/-- Lay a mapping's pairs over the entries `out` of a mapping whose keys
are text when `textKeys`, then merge what its merge key names. -/
def entries : Nat → Bool → List (Node × Node) → List (Value × Value) →
    Decode (List (Value × Value))
  | 0, _, _, out => pure out
  | fuel + 1, textKeys, es, out => do
    let keys := (← get).merged
    modify fun r => { r with merged := none }
    let step (acc : List (Value × Value) × Option Node × Option (List String)) (e : Node × Node) :
        Decode (List (Value × Value) × Option Node × Option (List String)) := do
      let (out, mergeNode, keys) := acc
      let (k, v) := e
      if isMergeKey k then return (out, some v, keys)
      let key? ← if textKeys then pure ((← keyName fuel k).map fun s => .scalar s (.str s))
        else loose fuel k
      match key? with
      | none => return acc
      | some key =>
        let (seen, keys) ← match keys with
          | some names => do
            let (seen, names) ← noteKey key names
            pure (seen, some names)
          | none => pure (false, none)
        if seen then return (out, mergeNode, keys)
        if key.isCollection then fail ("invalid map key: " ++ key.literal)
        match ← loose fuel v with
        | some value => return (Value.insertEntry key value out, mergeNode, keys)
        | none => return (out, mergeNode, keys)
    let (out, mergeNode, keys) ← es.foldlM step (out, none, keys)
    modify fun r => { r with merged := keys }
    match mergeNode with
    | some m => mergeInto fuel textKeys es m out
    | none => pure out

/-- Start the merged set, when there is none, from the keys of the mapping
`parent`, each read as a value of any type. -/
def gatherKeys : Nat → List (Node × Node) → Decode Unit
  | 0, _ => pure ()
  | fuel + 1, parent => do
    modify fun r => { r with merged := some [] }
    for (k, _) in parent do
      if let some key ← loose fuel k then
        let (_, names) ← noteKey key ((← get).merged.getD [])
        modify fun r => { r with merged := some names }

/-- Merge the mapping, or each mapping of the list, `m` into the entries
`out` of the mapping whose own pairs are `parent`. -/
def mergeInto : Nat → Bool → List (Node × Node) → Node → List (Value × Value) →
    Decode (List (Value × Value))
  | 0, _, _, _, out => pure out
  | fuel + 1, textKeys, parent, m, out => do
    let fresh := (← get).merged.isNone
    if fresh then gatherKeys fuel parent
    let wantMap : Decode Unit := fail "map merge requires map or sequence of maps as the value"
    let out ← match m with
      | .map .. => into fuel textKeys m out
      | .alias _ _ _ i => do
        if !(← anchoredNode i).isMap then wantMap
        into fuel textKeys m out
      | .seq _ _ items => items.foldlM (fun out item => do
          match item with
          | .alias _ _ _ i => if !(← anchoredNode i).isMap then wantMap
          | .map .. => pure ()
          | _ => wantMap
          into fuel textKeys item out) out
      | _ => do
        wantMap
        pure out
    if fresh then modify fun r => { r with merged := none }
    return out

/-- Lay a mapping node, or the mapping an alias stands for, over the
entries `out`. -/
def into : Nat → Bool → Node → List (Value × Value) → Decode (List (Value × Value))
  | 0, _, _, out => pure out
  | fuel + 1, textKeys, n, out => do
    countRead
    match n with
    | .alias _ id name i => following id name do into fuel textKeys (← anchoredNode i) out
    | .map _ _ es => do
      if ← duplicates es then return out
      entries fuel textKeys es out
    | _ => pure out

end

end HotLoop.Yaml
