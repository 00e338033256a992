import HotLoop.Dispatch.Core
import HotLoop.Text.Raw
/-!
# HotLoop.Config.Basic

The tunables of the loop core: arena sizes and nesting limit, the hotspot
gate, the optimizer's disabled strategies and parameters, the cache
capacity, debug switches, log level and whether to show statistics; their
defaults; the range checks a configuration must pass; and the dispatcher
options it stands for.
-/

namespace HotLoop

/-- Sizing of the loop variable arena. -/
structure MemoryConfig where
  arenaSize : Int := 65536
  arenaCeiling : Int := 16777216
  maxNestingDepth : Int := 64
  preallocate : Bool := true
  deriving Repr, Inhabited

/-- When a loop becomes a compilation candidate. -/
structure HotspotConfig where
  threshold : Int := 50
  minIterations : Int := 64
  /-- Nanoseconds. -/
  minElapsed : Int := 1000000
  deriving Repr, Inhabited

/-- Strategies and their parameters. -/
structure OptimizerConfig where
  /-- The names of disabled strategies, as written (they may be any bytes). -/
  disabled : List RawText := []
  unrollFactor : Int := 4
  /-- 0 takes the width of the host's vector unit. -/
  vectorWidth : Int := 0
  deriving Repr, Inhabited

/-- Per-subsystem debug logging. -/
structure DebugConfig where
  jit : Bool := false
  memory : Bool := false
  deriving Repr, Inhabited

/-- The whole configuration. -/
structure Config where
  memory : MemoryConfig := {}
  hotspot : HotspotConfig := {}
  optimizer : OptimizerConfig := {}
  cacheCapacity : Int := 256
  debug : DebugConfig := {}
  /-- The log level, as written (it may be any bytes). -/
  logLevel : RawText := RawText.ofString "warn"
  showStats : Bool := false
  deriving Repr, Inhabited

/-- The names strategies go by in a configuration. -/
def Config.strategyNames : List String :=
  ["hoisting", "strength-reduction", "vectorization", "unrolling", "branch-hints"]

/-- Check ranges and strategy names; the first violation is reported. A
name is compared in lower case with its stray bytes read as U+FFFD, and
quoted byte for byte. -/
def Config.validate (c : Config) : Except Error Unit := do
  let fail (m : String) : Except Error Unit := throw (.note m)
  let w := c.optimizer.vectorWidth
  if c.memory.arenaSize ≤ 0 then
    fail ("memory.arena_size must be positive, got " ++ toString c.memory.arenaSize)
  else if c.memory.arenaCeiling < c.memory.arenaSize then
    fail ("memory.arena_ceiling " ++ toString c.memory.arenaCeiling ++ " is below arena_size " ++
      toString c.memory.arenaSize)
  else if c.memory.maxNestingDepth < 1 then
    fail ("memory.max_nesting_depth must be at least 1, got " ++ toString c.memory.maxNestingDepth)
  else if c.hotspot.threshold < 1 then
    fail ("hotspot.threshold must be at least 1, got " ++ toString c.hotspot.threshold)
  else if c.hotspot.minIterations < 0 ∨ c.hotspot.minElapsed < 0 then
    fail "hotspot minimums must not be negative"
  else if c.optimizer.unrollFactor < 1 then
    fail ("optimizer.unroll_factor must be at least 1, got " ++ toString c.optimizer.unrollFactor)
  else if w < 0 ∨ (w.toNat &&& (w.toNat - 1)) ≠ 0 then
    fail ("optimizer.vector_width must be 0 or a power of two, got " ++ toString w)
  else if c.cacheCapacity < 1 then
    fail ("cache.capacity must be at least 1, got " ++ toString c.cacheCapacity)
  else
    for n in c.optimizer.disabled do
      if !Config.strategyNames.contains (Text.lower n.lossy) then
        fail ("optimizer.disabled: unknown strategy " ++ n.quote)

/-- The dispatcher options of a valid configuration; the disabled names
are read as a strategy set. `hostWidth` is the vector width that 0 stands
for. -/
def Config.options (c : Config) (hostWidth : Nat) : Except Error DispatchOptions := do
  let disabled ← match StrategySet.parse (c.optimizer.disabled.map RawText.lossy) with
    | .ok s => pure s
    | .error e => throw (.context "optimizer.disabled" e)
  let width := if c.optimizer.vectorWidth = 0 then hostWidth else c.optimizer.vectorWidth.toNat
  return { gate := { threshold := c.hotspot.threshold, minIterations := c.hotspot.minIterations.toInt64,
                     minElapsed := c.hotspot.minElapsed.toInt64 },
           plan := { disabled := disabled, unrollFactor := c.optimizer.unrollFactor, vectorWidth := width },
           memory := { arenaSize := c.memory.arenaSize, arenaCeiling := c.memory.arenaCeiling,
                       maxNestingDepth := c.memory.maxNestingDepth, preallocate := c.memory.preallocate },
           cacheCapacity := c.cacheCapacity }

end HotLoop
