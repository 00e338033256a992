import HotLoop.Compile.Run
import HotLoop.Compile.Cache
import HotLoop.Memory.Manager
import HotLoop.Dispatch.Profile
import HotLoop.Dispatch.Monitor
/-!
# HotLoop.Dispatch.Core

The dispatcher's bookkeeping: *sites*, each with its state, shape,
classification and, once promoted, its plan and fingerprint; the map from
loop identities to their sites; the profiler, the cache of artifacts, the
monitor, and the fingerprints whose compilation failed.

* Sites are numbered in the order they are made, and every step names the
  site it works on by number. Meeting a loop updates the site of its
  identity. A loop with a new shape at a known identity starts over: its
  profile is dropped and a fresh site takes the identity. The old site
  lives on under its number, so a run of its loop still under way (an
  outer loop whose body met the new one) goes on with it. The same shape
  keeps state, plan and fingerprint, so a loop equal to another one up to
  names and positions takes over its artifact.
* A hot site is *promoted*: it gets a plan and a fingerprint, and is
  compiled unless that fingerprint failed before, in which case it stays
  interpreted for good.
* A compiled site *acquires* its artifact from the cache, compiling it
  again when it was evicted. A failed compilation is remembered by
  fingerprint and leaves the site interpreted for good.
* Executions and compilations are timed by a clock that the options give:
  the nanoseconds of each timed step, in the order they are measured.

Every state change is counted by the monitor and logged in order.
-/

namespace HotLoop

/-- A loop site as the dispatcher sees it. -/
structure Site where
  id : String
  /-- The loop met last at this site. -/
  loop : Loop
  state : SiteState := .interpreted
  shape : Shape
  nodes : Array Node
  tier : Tier
  access : Access
  plan : Option Selection := none
  fingerprint : Fingerprint := default
  deriving Inhabited

/-- The options of a dispatcher. -/
structure DispatchOptions where
  gate : Gate := {}
  plan : PlanOptions := {}
  memory : MemoryOptions := {}
  cacheCapacity : Int := 256
  /-- The nanoseconds the `k`-th timed step takes, counting from 0: an
  execution of a loop or a compilation. A clock that reads 0 takes time out
  of the gate. -/
  clock : Nat → Nat := fun _ => 0
  deriving Inhabited

/-- The dispatcher's state. -/
structure Dispatcher where
  plan : PlanOptions
  /-- Every site made so far, by number. -/
  heap : List Site := []
  /-- The number of the site of each identity met. -/
  sites : List (String × Nat) := []
  profiler : Profiler
  cache : Cache Artifact
  monitor : Monitor := {}
  failed : List (Fingerprint × Error) := []
  /-- State changes as `(site, from, to)`, oldest first. -/
  log : Array (String × SiteState × SiteState) := #[]
  clock : Nat → Nat := fun _ => 0
  /-- How many timed steps the clock has measured. -/
  ticks : Nat := 0
  deriving Inhabited

/-- A dispatcher with nothing seen yet. -/
def Dispatcher.new (o : DispatchOptions) : Dispatcher :=
  { plan := o.plan, profiler := Profiler.new o.gate, cache := Cache.new o.cacheCapacity, clock := o.clock }

/-- The number of the site of identity `id`. -/
def Dispatcher.siteAt? (d : Dispatcher) (id : String) : Option Nat :=
  (d.sites.find? (·.1 = id)).map (·.2)

/-- The state of the site of `id`; a site never met is interpreted. -/
def Dispatcher.stateOf (d : Dispatcher) (id : String) : SiteState :=
  (((d.siteAt? id).bind (d.heap[·]?)).map (·.state)).getD .interpreted

/-- How a compile attempt ended, by what it gave. -/
def CompileOutcome.of {α : Type} : Except Error α → CompileOutcome
  | .ok _ => .ok
  | .error e => if e.cause = .unsupported then .unsupported else .internal

/-- Bookkeeping steps of the dispatcher. -/
abbrev Dispatch := StateM Dispatcher

namespace Dispatch

/-- Site number `p`. -/
def site? (p : Nat) : Dispatch (Option Site) := do
  return (← get).heap[p]?

/-- Overwrite site number `p`. -/
def store (p : Nat) (s : Site) : Dispatch Unit :=
  modify fun d => { d with heap := d.heap.set p s }

/-- Add a site and give it its identity, in place of any site it had: the
new site's number. -/
def create (s : Site) : Dispatch Nat := do
  let d ← get
  let p := d.heap.length
  let sites := if d.sites.any (·.1 = s.id) then d.sites.map fun e => if e.1 = s.id then (e.1, p) else e
    else d.sites ++ [(s.id, p)]
  set { d with heap := d.heap ++ [s], sites := sites }
  return p

/-- Move site `p` to state `b`, counting and logging the change. -/
def moveTo (p : Nat) (b : SiteState) : Dispatch Unit := do
  let some s ← site? p | return
  if s.state = b then return
  store p { s with state := b }
  modify fun d => { d with monitor := d.monitor.moved s.state b, log := d.log.push (s.id, s.state, b) }

/-- The site of loop `l`, updated for it, and its number. -/
def meet (l : Loop) : Dispatch (Nat × Site) := do
  let id := l.id
  let d ← get
  let known := (d.siteAt? id).bind fun p => d.heap[p]?.map (p, ·)
  if let some (p, s) := known then
    if s.loop.key = l.key then return (p, s)
  let shape := l.shape
  let start : Site := { id := id, loop := l, shape := shape, nodes := #[], tier := .trivial,
                        access := .scalar }
  let (p, s) ← match known with
    | some (p, s) =>
      if s.shape.hash = shape.hash then pure (p, s)
      else do
        modify fun d => { d with profiler := d.profiler.reset id }
        let p ← create start
        pure (p, start)
    | none => do
      let p ← create start
      pure (p, start)
  let tier := tierOf l.body
  let access := l.access
  let s := { s with loop := l, shape := shape, nodes := l.nodes.toArray, tier := tier, access := access }
  store p s
  modify fun d => { d with profiler := d.profiler.observe id tier access }
  return (p, s)

/-- Read the clock: the nanoseconds of the next timed step. -/
def measure : Dispatch Int64 :=
  modifyGet fun d => ((d.clock d.ticks).toInt64, { d with ticks := d.ticks + 1 })

/-- Compile site `p` with its plan, counting the outcome and its time. -/
def compile (p : Nat) : Dispatch (Except Error Artifact) := do
  let some s ← site? p | return .error (.detailed .internal "no site")
  let sel := s.plan.getD { loop := s.loop.key }
  let r := s.loop.compile s.shape sel s.fingerprint true
  let t ← measure
  modify fun d => { d with monitor := d.monitor.compiled (.of r) t.toInt }
  return r

/-- Remember that the fingerprint of site `p` failed to compile. -/
def fail (p : Nat) (e : Error) : Dispatch Unit := do
  let some s ← site? p | return
  modify fun d => { d with failed := d.failed ++ [(s.fingerprint, e)] }
  moveTo p .permanentlyInterpreted

/-- The artifact of compiled site `p`, compiled again when evicted. -/
def acquire (p : Nat) : Dispatch (Option Artifact) := do
  let some s ← site? p | return none
  let d ← get
  let (r, cache) ← d.cache.getOrCompile s.fingerprint (do moveTo p .compiling; compile p)
  modify fun d => { d with cache := cache }
  match r with
  | .error e =>
    modify fun d => { d with monitor := d.monitor.lookedUp false }
    fail p e
    return none
  | .ok (a, hit) =>
    modify fun d => { d with monitor := d.monitor.lookedUp hit }
    moveTo p .compiled
    return some a

/-- Promote hot site `p`: plan it, fingerprint it, and compile it unless
its fingerprint failed before. -/
def promote (p : Nat) : Dispatch Unit := do
  let some s ← site? p | return
  let d ← get
  let prof := (d.profiler.get? s.id).getD { id := s.id }
  let sel := Selection.choose d.plan s.loop s.shape prof.tier prof.access
  let fp := Fingerprint.of s.shape prof.tier sel.set
  store p { s with plan := some sel, fingerprint := fp }
  if d.failed.any (·.1 = fp) then
    moveTo p .permanentlyInterpreted
    return
  let _ ← acquire p

/-- Record one execution of the site of `id`, with its time. -/
def record (id : String) (compiled : Bool) (iterations : Nat) : Dispatch Unit := do
  let t ← measure
  modify fun d => { d with profiler := d.profiler.record id iterations.toInt64 t,
                           monitor := d.monitor.ran compiled iterations t.toInt }

/-- After an interpreted execution of site `p` that ended well: a new site
starts profiling, and a hot one is promoted. -/
def afterRun (p : Nat) : Dispatch Unit := do
  let some s ← site? p | return
  if s.state = .permanentlyInterpreted then return
  if s.state = .interpreted then moveTo p .profiling
  if (← get).profiler.shouldCompile s.id then promote p

end Dispatch

end HotLoop
