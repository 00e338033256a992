import HotLoop.Dispatch.Core
import HotLoop.Text.Duration
import HotLoop.Text.Magnitude
/-!
# HotLoop.Report

The statistics report: what ran interpreted and compiled, how compiling
went, how the cache and the loop memory were used, which state transitions
happened, and the hottest loops, as plain text.

Counts are written with grouped digits, byte sizes in powers of 1024 and
fractions as percentages. Times of runs, of compiling and of single loops are
rounded to whole microseconds before they are written; the mean time per
iteration is written unrounded. At most five hottest loops are listed, in the
order given.
-/

namespace HotLoop

/-- Counters of the dispatcher, times in nanoseconds. -/
structure Snapshot where
  run : String := "00000000-0000-0000-0000-000000000000"
  compileAttempts : Int := 0
  compileSuccesses : Int := 0
  compileUnsupported : Int := 0
  compileInternal : Int := 0
  compileTime : Int := 0
  cacheHits : Int := 0
  cacheMisses : Int := 0
  interpretedRuns : Int := 0
  interpretedIterations : Int := 0
  interpretedTime : Int := 0
  compiledRuns : Int := 0
  compiledIterations : Int := 0
  compiledTime : Int := 0
  /-- Transition counts by edge, in the order they are listed. -/
  transitions : List (String × Int) := []
  deriving Inhabited

namespace Snapshot

/-- The quotient of two counts as a double. -/
def ratio (a b : Int) : Double := (Double.ofInt64 (Int64.ofInt a)).div (Double.ofInt64 (Int64.ofInt b))

/-- Cache hits per lookup, 0 before the first lookup. The number of lookups
is the sum of the two counts as a signed 64-bit word, so counts that sum to a
multiple of `2^64` also give 0. -/
def hitRate (s : Snapshot) : Double :=
  let total := Int64.ofInt s.cacheHits + Int64.ofInt s.cacheMisses
  if total = 0 then ⟨0⟩ else (Double.ofInt64 (Int64.ofInt s.cacheHits)).div (Double.ofInt64 total)

/-- The mean time per iteration of interpreted and of compiled runs,
truncated to whole nanoseconds; 0 for a side without iterations. -/
def perIteration (s : Snapshot) : Int × Int :=
  (if s.interpretedIterations > 0 then s.interpretedTime.tdiv s.interpretedIterations else 0,
   if s.compiledIterations > 0 then s.compiledTime.tdiv s.compiledIterations else 0)

/-- Interpreted over compiled time per iteration, 0 when either is 0. -/
def speedup (s : Snapshot) : Double :=
  let (i, c) := s.perIteration
  if i = 0 ∨ c = 0 then ⟨0⟩ else ratio i c

end Snapshot

/-- Counters of the stack arena. -/
structure ArenaCounts where
  size : Int := 0
  ceiling : Int := 0
  used : Int := 0
  peak : Int := 0
  allocations : Int := 0
  releases : Int := 0
  growths : Int := 0
  deriving Inhabited

/-- Counters of loop memory. -/
structure MemoryCounts where
  loopsEntered : Int := 0
  maxDepth : Int := 0
  slotsPromoted : Int := 0
  heapFallbacks : Int := 0
  preallocHits : Int := 0
  preallocMisses : Int := 0
  arena : ArenaCounts := {}
  deriving Inhabited

/-- Counters of the compilation cache. -/
structure CacheCounts where
  entries : Int := 0
  capacity : Int := 0
  evictions : Int := 0
  deriving Inhabited

/-- A hot loop: its site, how often it ran, its iterations, its total time,
and its tier and access pattern. -/
structure HotSite where
  id : String
  executions : Int
  iterations : Int
  elapsed : Int
  tier : Tier
  access : Access
  deriving Inhabited

/-- Everything a report shows. -/
structure Report where
  snapshot : Snapshot := {}
  cache : CacheCounts := {}
  memory : MemoryCounts := {}
  hottest : List HotSite := []
  deriving Inhabited

namespace Report

/-- The most loops listed. -/
def maxHottest : Nat := 5

/-- A count as a 64-bit word, the way a byte size is read. -/
def word (n : Int) : Nat := (n % 18446744073709551616).toNat

/-- Frames placed in the arena per frame entered, 0 before the first. Both
counts and their sum are unsigned 64-bit words, so a negative count stands
for a large one. -/
def arenaShare (hits misses : Int) : Double :=
  let h := UInt64.ofNat (word hits)
  let total := h + UInt64.ofNat (word misses)
  if total = 0 then ⟨0⟩ else (Double.ofUInt64 h).div (Double.ofUInt64 total)

/-- A time rounded to whole microseconds. -/
def micros (t : Int) : String := Duration.text (Duration.round t 1000)

/-- A section heading. -/
def heading (title : String) : String := "\n--- " ++ title ++ " ---\n"

/-- A labelled line. -/
def line (label value : String) : String := Text.padRight (label ++ ":") 22 ++ value ++ "\n"

/-- The report as text. -/
def text (r : Report) : String :=
  let s := r.snapshot
  let m := r.memory
  let a := m.arena
  let c := Text.count
  let (pi, pc) := s.perIteration
  let sp := s.speedup
  let memRatio := arenaShare m.preallocHits m.preallocMisses
  let util := if a.size = 0 then (⟨0⟩ : Double) else Snapshot.ratio a.used a.size
  "=== loop execution statistics (run " ++ s.run ++ ") ===\n" ++
  heading "executions" ++
  line "interpreted runs" (c s.interpretedRuns ++ " (" ++ c s.interpretedIterations ++ " iterations, " ++
    micros s.interpretedTime ++ ")") ++
  line "compiled runs" (c s.compiledRuns ++ " (" ++ c s.compiledIterations ++ " iterations, " ++
    micros s.compiledTime ++ ")") ++
  line "time per iteration" ("interpreted " ++ Duration.text pi ++ ", compiled " ++ Duration.text pc ++
    (if Double.lt ⟨0⟩ sp then " (" ++ HotLoop.Float.fixed sp.bits 1 ++ "x)" else "")) ++
  heading "compilation" ++
  line "attempts" (c s.compileAttempts) ++
  line "succeeded" (c s.compileSuccesses) ++
  line "unsupported" (c s.compileUnsupported) ++
  line "internal errors" (c s.compileInternal) ++
  line "compile time" (micros s.compileTime) ++
  heading "compilation cache" ++
  line "entries" (toString r.cache.entries ++ " / " ++ toString r.cache.capacity) ++
  line "hits / misses" (c s.cacheHits ++ " / " ++ c s.cacheMisses) ++
  line "hit rate" (Text.percent s.hitRate) ++
  line "evictions" (c r.cache.evictions) ++
  heading "loop variables" ++
  line "loops entered" (c m.loopsEntered) ++
  line "max nesting depth" (toString m.maxDepth) ++
  line "slots promoted" (c m.slotsPromoted) ++
  line "arena hits / misses" (c m.preallocHits ++ " / " ++ c m.preallocMisses ++ " (" ++
    Text.percent memRatio ++ ")") ++
  line "heap fallbacks" (c m.heapFallbacks) ++
  heading "stack arena" ++
  line "size" (Text.bytes (word a.size) ++ " (ceiling " ++ Text.bytes (word a.ceiling) ++ ")") ++
  line "used / peak" (Text.bytes (word a.used) ++ " / " ++ Text.bytes (word a.peak)) ++
  line "allocations" (c a.allocations ++ " (" ++ c a.releases ++ " releases, " ++ c a.growths ++ " growths)") ++
  line "utilization" (Text.percent util) ++
  (if s.transitions.isEmpty then ""
   else heading "state transitions" ++
     String.join (s.transitions.map fun (e, n) => Text.padRight e 36 ++ " " ++ c n ++ "\n")) ++
  (if r.hottest.isEmpty then ""
   else heading "hottest loops" ++
     String.join ((r.hottest.take maxHottest).map fun p =>
       Text.padRight p.id 12 ++ " " ++ Text.padLeft (c p.executions) 8 ++ " runs " ++
       Text.padLeft (c p.iterations) 12 ++ " iterations " ++ Text.padLeft (micros p.elapsed) 10 ++
       "  " ++ p.tier.name ++ "/" ++ p.access.name ++ "\n")) ++
  String.ofList (List.replicate 44 '=') ++ "\n"

/-- The report of a dispatcher and the loop memory it ran with. -/
def ofDispatcher (d : Dispatcher) (mem : Manager) : Report :=
  let mo := d.monitor
  let cs := d.cache.stats
  let ms := mem.stats
  let ar := mem.arena
  { snapshot := { compileAttempts := mo.compileAttempts, compileSuccesses := mo.compileSuccesses,
                  compileUnsupported := mo.compileUnsupported, compileInternal := mo.compileInternal,
                  compileTime := mo.compileTime, cacheHits := mo.cacheHits, cacheMisses := mo.cacheMisses,
                  interpretedRuns := mo.interpretedRuns, interpretedIterations := mo.interpretedIterations,
                  interpretedTime := mo.interpretedTime, compiledRuns := mo.compiledRuns,
                  compiledIterations := mo.compiledIterations, compiledTime := mo.compiledTime,
                  transitions := mo.edges.map fun (e, n) => (e, (n : Int)) },
    cache := { entries := cs.entries, capacity := cs.capacity, evictions := cs.evictions },
    memory := { loopsEntered := ms.loopsEntered, maxDepth := ms.maxDepth, slotsPromoted := ms.slotsPromoted,
                heapFallbacks := ms.heapFallbacks, preallocHits := ms.preallocHits,
                preallocMisses := ms.preallocMisses,
                arena := { size := ar.size, ceiling := ar.ceiling, used := ar.top, peak := ar.peak,
                           allocations := ar.allocations, releases := ar.releases, growths := ar.growths } },
    hottest := d.profiler.ranked.map fun p =>
      { id := p.id, executions := p.executions.toNat, iterations := p.iterations.toNat, elapsed := p.elapsed.toInt,
        tier := p.tier, access := p.access } }

end Report

end HotLoop
