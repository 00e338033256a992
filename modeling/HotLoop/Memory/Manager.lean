import HotLoop.Memory.Frame
/-!
# HotLoop.Memory.Manager

The manager of loop frames: it owns the arena, limits how deep frames nest,
and counts what happens.

Entering a loop opens a frame with one slot per promoted variable, in the
arena when there is room (and preallocation is on), else on the heap; the
variables the loop writes without declaring are copied in from the
enclosing environment. Exiting writes those variables back, in slot order,
through the enclosing environment; the first failed write-back is reported
after all have been tried. The arena then goes back to where it stood when
the frame was opened.
-/

namespace HotLoop

/-- Sizing of a manager; zero or negative fields take the defaults. -/
structure MemoryOptions where
  arenaSize : Int := Arena.defaultSize
  arenaCeiling : Int := Arena.defaultCeiling
  maxNestingDepth : Int := 64
  preallocate : Bool := true
  deriving Repr, Inhabited

/-- Counters of frame activity. -/
structure MemoryStats where
  loopsEntered : Nat := 0
  loopsExited : Nat := 0
  maxDepth : Nat := 0
  slotsPromoted : Nat := 0
  heapFallbacks : Nat := 0
  preallocHits : Nat := 0
  preallocMisses : Nat := 0
  deriving Repr, Inhabited

/-- Fraction of frames placed in the arena, 0 before the first. -/
def MemoryStats.hitRatio (s : MemoryStats) : Double :=
  let total := s.preallocHits + s.preallocMisses
  if total = 0 then ⟨0⟩
  else Double.ofFloat (s.preallocHits.toUInt64.toFloat / total.toUInt64.toFloat)

/-- The used fraction of the arena's current size. -/
def Arena.utilization (a : Arena) : Double :=
  if a.size = 0 then ⟨0⟩
  else Double.div (Double.ofUInt64 a.top.toUInt64) (Double.ofUInt64 a.size.toUInt64)

/-- The error of a failed allocation. -/
def ArenaFault.error : ArenaFault → Error
  | .badAlignment => .fault .badAlignment
  | .outOfCapacity need ceiling =>
    .detailed .outOfCapacity ("need " ++ toString need ++ " bytes, ceiling " ++ toString ceiling)

/-- The frame manager. -/
structure Manager where
  arena : Arena
  maxNestingDepth : Nat
  preallocate : Bool
  stats : MemoryStats := {}
  /-- Number of open frames. -/
  depth : Nat := 0

namespace Manager

/-- A manager with fresh arena; zero or negative sizes take the defaults. -/
def new (o : MemoryOptions) : Manager :=
  let size := if o.arenaSize ≤ 0 then (Arena.defaultSize : Int) else o.arenaSize
  let ceiling := if o.arenaCeiling ≤ 0 then (Arena.defaultCeiling : Int) else o.arenaCeiling
  let depth := if o.maxNestingDepth ≤ 0 then 64 else o.maxNestingDepth.toNat
  { arena := Arena.new size ceiling, maxNestingDepth := depth, preallocate := o.preallocate }

/-- Copy in the variables a frame writes but does not declare. -/
def copyIn (a : Arena) (parent : Env) (f : Frame) : Frame × Arena :=
  f.vars.foldl (fun (f, a) lv =>
    if lv.declared then (f, a)
    else match parent.lookup a lv.name with
      | some v => f.put a lv.slot v
      | none => (f, a)) (f, a)

/-- Open a frame for one execution of loop `l` with shape `shape` inside
`parent`. Fails when `maxNestingDepth` frames are already open. -/
def enter (m : Manager) (l : Loop) (shape : Shape) (parent : Env) : Except Error (Frame × Manager) :=
  if m.depth ≥ m.maxNestingDepth then
    .error (Error.locate .nestingTooDeep l.pos.line l.pos.col
      (.detailed .nestingTooDeep ("depth " ++ toString (m.depth + 1) ++ " exceeds limit " ++
        toString m.maxNestingDepth)))
  else
    let n := shape.numSlots
    let mark := m.arena.checkpoint
    let (base, exhausted, arena, stats) :=
      if m.preallocate then
        match m.arena.allocate (8 * n) 8 with
        | .ok (off, a) => (some off, none, a, { m.stats with preallocHits := m.stats.preallocHits + 1 })
        | .error e =>
          (none, some (Error.locate .allocatorExhausted l.pos.line l.pos.col (ArenaFault.error e)),
            m.arena, { m.stats with preallocMisses := m.stats.preallocMisses + 1 })
      else (none, none, m.arena, m.stats)
    let stats := if base.isNone then { stats with heapFallbacks := stats.heapFallbacks + 1 } else stats
    let roles := l.roles shape
    let vars := (List.range n).map fun slot =>
      let i := shape.promoted[slot]!
      { name := shape.names[i]!, index := i, slot := slot,
        offset := (match base with | some b => ((b + 8 * slot : Nat) : Int) | none => -1),
        role := roles[i]!, declared := shape.declared[i]! : LoopVariable }
    let f : Frame :=
      { shape := shape, vars := vars.toArray, base := base, heap := Array.replicate n 0,
        kinds := Array.replicate n .nil, isSet := Array.replicate n false,
        arrays := Array.replicate n [], extra := [], exhausted := exhausted, mark := mark,
        depth := m.depth + 1, live := true }
    let (f, arena) := copyIn arena parent f
    let depth := m.depth + 1
    let stats := { stats with loopsEntered := stats.loopsEntered + 1,
                              slotsPromoted := stats.slotsPromoted + n,
                              maxDepth := max stats.maxDepth depth }
    .ok (f, { m with arena := arena, stats := stats, depth := depth })

/-- Write back the copied-in variables of `f` through `parent`, in slot
order; the first failure is kept. -/
def writeBack (a : Arena) (parent : Env) (f : Frame) : Env × Arena × Option Error :=
  f.vars.foldl (fun (env, a, err) lv =>
    if lv.declared then (env, a, err)
    else match f.get? a lv.slot with
      | none => (env, a, err)
      | some v => match env.assign a lv.name v with
        | some (env, a) => (env, a, err)
        | none => (env, a, err <|> some (Env.undefined lv.name))) (parent, a, none)

/-- Close the innermost open frame `f`, whose enclosing environment is
`parent`: write back, release its arena bytes, count the exit. -/
def exit (m : Manager) (f : Frame) (parent : Env) : Manager × Env × Option Error :=
  let (parent, arena, err) := writeBack m.arena parent f
  let arena := arena.release f.mark
  ({ m with arena := arena, depth := m.depth - 1,
            stats := { m.stats with loopsExited := m.stats.loopsExited + 1 } }, parent, err)

end Manager

end HotLoop
