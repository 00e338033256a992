import HotLoop.Config.Basic
import HotLoop.Yaml.Value
import HotLoop.Text.Duration
import HotLoop.Text.Quote
/-!
# HotLoop.Config.Decode

Configurations written in YAML. The text's first document is laid over the
defaults: a mapping sets the fields it names and leaves the others alone, a
null leaves a field as it is (a null list becomes empty), and every key must
name a field, once.

Each value must fit the field's type. Integers take integer scalars and,
truncated, floats up to `2^63`; a span of time takes only duration text such
as `5ms`; a flag takes `true`/`false` and the words `y`, `yes`, `on`, `n`,
`no`, `off` in their usual capitalisations; text takes any non-null scalar as
written. Aliases stand for their anchored node. A key `<<` merges a mapping,
or a list of mappings, into the record: keys of the record itself win, and
of the merged mappings the earlier ones.

A value that does not fit, an unknown key, a field set twice and a key
written twice in one mapping are each reported with their line, all of them
in document order, and the whole reading then fails; a tag its text does not
fit, a merge of something that is not a mapping and an alias met again
inside its own node end the reading at once. The keys of a mapping with a
merge key are first read as values of any type (`HotLoop.Yaml.Value`), and a
list or a mapping among them crashes the reader. A configuration that reads
is then checked by `Config.validate`.
-/

namespace HotLoop

namespace Yaml

/-! ## Schemas -/

/-- How values of a type are read from nodes. -/
structure Schema (α : Type) where
  /-- The type's name in failures. -/
  name : String
  /-- The value a scalar that is not null gives, from its tag, text and value;
  `none` if it does not fit. -/
  scalar : String → String → Scalar → Option α
  /-- The value a null gives, if it gives one. -/
  null : Option α := none
  /-- How a sequence's items give a value, if the type takes sequences. -/
  items : Option (Nat → List Node → Decode α) := none
  /-- How each field of a record is laid over it, if the type is a record. -/
  fields : Option (List (String × (Nat → Node → α → Decode α))) := none

mutual

/-- Lay a node over a value: the new value, and whether the node gave one. -/
def unmarshal {α : Type} (s : Schema α) : Nat → Node → α → Decode (α × Bool)
  | 0, _, out => pure (out, false)
  | fuel + 1, n, out => do
    countRead
    match n with
    | .alias _ id name i => following id name do unmarshal s fuel (← anchoredNode i) out
    | .scalar _ tag text _ => do
      let (t, v) ← scalarValue tag text
      match v with
      | .null =>
        match s.null with
        | some x => pure (x, true)
        | none => pure (out, false)
      | v =>
        match s.scalar t text v with
        | some x => pure (x, true)
        | none => do
          mismatch n s.name
          pure (out, false)
    | .seq _ _ items =>
      match s.items with
      | some f => do pure (← f fuel items, true)
      | none => do
        mismatch n s.name
        pure (out, false)
    | .map _ _ es => do
      if ← duplicates es then return (out, false)
      match s.fields with
      | some fs => do pure (← record s fuel fs es out, true)
      | none => do
        mismatch n s.name
        pure (out, false)

/-- Lay a mapping's pairs over a record with fields `fs`, then what its merge
key names. -/
def record {α : Type} (s : Schema α) : Nat → List (String × (Nat → Node → α → Decode α)) →
    List (Node × Node) → α → Decode α
  | 0, _, _, out => pure out
  | fuel + 1, fs, es, out => do
    let outer := (← get).merged
    modify fun r => { r with merged := none }
    let step (acc : α × List String × Option Node × Option (List String)) (e : Node × Node) :
        Decode (α × List String × Option Node × Option (List String)) := do
      let (out, done, mergeNode, seen) := acc
      let (k, v) := e
      if isMergeKey k then return (out, done, some v, seen)
      match ← keyName fuel k with
      | none => return acc
      | some name =>
        if seen.any (·.contains name) then return acc
        let seen := seen.map (· ++ [name])
        match fs.lookup name with
        | some f =>
          if done.contains name then
            report k.line ("field " ++ name ++ " already set in type " ++ s.name)
            return (out, done, mergeNode, seen)
          return (← f fuel v out, name :: done, mergeNode, seen)
        | none =>
          report k.line ("field " ++ name ++ " not found in type " ++ s.name)
          return (out, done, mergeNode, seen)
    let (out, _, mergeNode, seen) ← es.foldlM step (out, [], none, outer)
    modify fun r => { r with merged := seen }
    match mergeNode with
    | some m => merge s fuel fs es m out
    | none => pure out

/-- Merge the mapping, or each mapping of the list, `m` into a record whose
own pairs are `parent`: fields set already are kept. -/
def merge {α : Type} (s : Schema α) : Nat → List (String × (Nat → Node → α → Decode α)) →
    List (Node × Node) → Node → α → Decode α
  | 0, _, _, _, out => pure out
  | fuel + 1, _, parent, m, out => do
    let fresh := (← get).merged.isNone
    if fresh then gatherKeys fuel parent
    let wantMap : Decode Unit := fail "map merge requires map or sequence of maps as the value"
    let out ← match m with
      | .map .. => do pure (← unmarshal s fuel m out).1
      | .alias _ _ _ i => do
        if !(← anchoredNode i).isMap then wantMap
        pure (← unmarshal s fuel m out).1
      | .seq _ _ items => items.foldlM (fun out item => do
          match item with
          | .alias _ _ _ i => if !(← anchoredNode i).isMap then wantMap
          | .map .. => pure ()
          | _ => wantMap
          pure (← unmarshal s fuel item out).1) out
      | _ => do
        wantMap
        pure out
    if fresh then modify fun r => { r with merged := none }
    return out

end

namespace Schema

/-- Text: any scalar that is not null, as written; `!!binary` text gives
the bytes it decodes to. -/
def text : Schema RawText :=
  { name := "string", scalar := fun t s _ =>
      some (if t == "!!binary" then ⟨(base64Bytes s).getD []⟩ else RawText.ofString s) }

/-- A 64-bit integer; floats up to `2^63` are truncated, and a float beyond
the 64-bit range lands on the least integer. -/
def integer (name : String) : Schema Int :=
  { name := name, scalar := fun _ _ v => match v with
      | .int i => some i
      | .float x =>
        if x.isNaN || x.toFloat > 9223372036854775807.0 then none else some x.truncInt64.toInt
      | _ => none }

/-- A span of time, written as duration text. -/
def duration : Schema Int :=
  { name := "time.Duration", scalar := fun _ _ v => match v with
      | .str s => Duration.read? s
      | _ => none }

/-- The words a flag also takes. -/
def flagWords : List (String × Bool) :=
  [("y", true), ("Y", true), ("yes", true), ("Yes", true), ("YES", true), ("on", true), ("On", true),
   ("ON", true), ("n", false), ("N", false), ("no", false), ("No", false), ("NO", false),
   ("off", false), ("Off", false), ("OFF", false)]

/-- A flag. -/
def flag : Schema Bool :=
  { name := "bool", scalar := fun _ _ v => match v with
      | .bool b => some b
      | .str s => flagWords.lookup s
      | _ => none }

/-- A list of texts; a null is the empty list, and items that are null or
do not fit are left out. -/
def texts : Schema (List RawText) :=
  { name := "[]string", scalar := fun _ _ _ => none, null := some [],
    items := some fun fuel items => items.filterMapM fun i => do
      let (s, ok) ← unmarshal text fuel i default
      return if ok then some s else none }

/-- A record with its fields. -/
def ofFields {α : Type} (name : String) (fs : List (String × (Nat → Node → α → Decode α))) : Schema α :=
  { name := name, scalar := fun _ _ _ => none, fields := some fs }

/-- A field read with `s` and stored by `put`. -/
def field {α β : Type} (s : Schema β) (get : α → β) (put : α → β → α) : Nat → Node → α → Decode α :=
  fun fuel n out => do return put out (← unmarshal s fuel n (get out)).1

end Schema

end Yaml

open Yaml

/-- The memory settings. -/
def MemoryConfig.schema : Schema MemoryConfig :=
  .ofFields "config.MemoryConfig"
    [("arena_size", Schema.field (.integer "int") (·.arenaSize) fun c x => { c with arenaSize := x }),
     ("arena_ceiling", Schema.field (.integer "int") (·.arenaCeiling) fun c x => { c with arenaCeiling := x }),
     ("max_nesting_depth", Schema.field (.integer "int") (·.maxNestingDepth) fun c x => { c with maxNestingDepth := x }),
     ("preallocate", Schema.field .flag (·.preallocate) fun c x => { c with preallocate := x })]

/-- The hotspot gate. -/
def HotspotConfig.schema : Schema HotspotConfig :=
  .ofFields "config.HotspotConfig"
    [("threshold", Schema.field (.integer "int") (·.threshold) fun c x => { c with threshold := x }),
     ("min_iterations", Schema.field (.integer "int64") (·.minIterations) fun c x => { c with minIterations := x }),
     ("min_elapsed", Schema.field .duration (·.minElapsed) fun c x => { c with minElapsed := x })]

/-- The optimizer settings. -/
def OptimizerConfig.schema : Schema OptimizerConfig :=
  .ofFields "config.OptimizerConfig"
    [("disabled", Schema.field .texts (·.disabled) fun c x => { c with disabled := x }),
     ("unroll_factor", Schema.field (.integer "int") (·.unrollFactor) fun c x => { c with unrollFactor := x }),
     ("vector_width", Schema.field (.integer "int") (·.vectorWidth) fun c x => { c with vectorWidth := x })]

/-- The cache bound. -/
def cacheSchema : Schema Int :=
  .ofFields "config.CacheConfig" [("capacity", Schema.field (.integer "int") id fun _ x => x)]

/-- The debug switches. -/
def DebugConfig.schema : Schema DebugConfig :=
  .ofFields "config.DebugConfig"
    [("jit", Schema.field .flag (·.jit) fun c x => { c with jit := x }),
     ("memory", Schema.field .flag (·.memory) fun c x => { c with memory := x })]

/-- A whole configuration. -/
def Config.schema : Schema Config :=
  .ofFields "config.Config"
    [("memory", Schema.field MemoryConfig.schema (·.memory) fun c x => { c with memory := x }),
     ("hotspot", Schema.field HotspotConfig.schema (·.hotspot) fun c x => { c with hotspot := x }),
     ("optimizer", Schema.field OptimizerConfig.schema (·.optimizer) fun c x => { c with optimizer := x }),
     ("cache", Schema.field cacheSchema (·.cacheCapacity) fun c x => { c with cacheCapacity := x }),
     ("debug", Schema.field DebugConfig.schema (·.debug) fun c x => { c with debug := x }),
     ("log_level", Schema.field .text (·.logLevel) fun c x => { c with logLevel := x }),
     ("show_stats", Schema.field .flag (·.showStats) fun c x => { c with showStats := x })]

/-- A configuration read from YAML text over the defaults, then checked. -/
def Config.parse (text : String) : Except Error Config := do
  let c ← match Document.read text with
    | .error f => throw (.context "decode config" (.note f.message))
    | .ok none => pure {}
    | .ok (some d) =>
      let fuel := (d.anchored.size + 1) * (text.length + 8) * 4
      match (unmarshal Config.schema fuel d.root {}).run { anchored := d.anchored } with
      | .error (.crash reason) _ => throw (.crash reason)
      | .error (.fault problem) _ => throw (.context "decode config" (.note ("yaml: " ++ problem)))
      | .ok (c, _) r =>
        if r.errors.isEmpty then pure c
        else throw (.context "decode config"
          (.note ("yaml: unmarshal errors:\n  " ++ "\n  ".intercalate r.errors.toList)))
  c.validate
  return c

end HotLoop
