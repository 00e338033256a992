import HotLoop.Dispatch.State
/-!
# HotLoop.Dispatch.Monitor

Counters of what the dispatcher does: compile attempts and their outcomes,
cache hits and misses, interpreted and compiled runs with their iterations
and time, and how often each state transition happened.
-/

namespace HotLoop

/-- How a compile attempt ended. -/
inductive CompileOutcome where
  | ok
  | unsupported
  | internal
  deriving DecidableEq, Repr

/-- The counters. Times are nanoseconds. -/
structure Monitor where
  compileAttempts : Nat := 0
  compileSuccesses : Nat := 0
  compileUnsupported : Nat := 0
  compileInternal : Nat := 0
  compileTime : Int := 0
  cacheHits : Nat := 0
  cacheMisses : Nat := 0
  interpretedRuns : Nat := 0
  interpretedIterations : Nat := 0
  interpretedTime : Int := 0
  compiledRuns : Nat := 0
  compiledIterations : Nat := 0
  compiledTime : Int := 0
  /-- Transition counts by edge text `from -> to`, in order of first use. -/
  transitions : List (String × Nat) := []
  deriving Repr, Inhabited

namespace Monitor

/-- Count a compile attempt. -/
def compiled (m : Monitor) (o : CompileOutcome) (t : Int) : Monitor :=
  let m := { m with compileAttempts := m.compileAttempts + 1, compileTime := m.compileTime + t }
  match o with
  | .ok => { m with compileSuccesses := m.compileSuccesses + 1 }
  | .unsupported => { m with compileUnsupported := m.compileUnsupported + 1 }
  | .internal => { m with compileInternal := m.compileInternal + 1 }

/-- Count a cache lookup. -/
def lookedUp (m : Monitor) (hit : Bool) : Monitor :=
  if hit then { m with cacheHits := m.cacheHits + 1 } else { m with cacheMisses := m.cacheMisses + 1 }

/-- Count one execution of a loop. -/
def ran (m : Monitor) (compiled : Bool) (iterations : Nat) (t : Int) : Monitor :=
  if compiled then
    { m with compiledRuns := m.compiledRuns + 1, compiledIterations := m.compiledIterations + iterations,
             compiledTime := m.compiledTime + t }
  else
    { m with interpretedRuns := m.interpretedRuns + 1,
             interpretedIterations := m.interpretedIterations + iterations,
             interpretedTime := m.interpretedTime + t }

/-- Count a state transition. -/
def moved (m : Monitor) (a b : SiteState) : Monitor :=
  let edge := a.name ++ " -> " ++ b.name
  if m.transitions.any (·.1 = edge) then
    { m with transitions := m.transitions.map fun (e, n) => if e = edge then (e, n + 1) else (e, n) }
  else { m with transitions := m.transitions ++ [(edge, 1)] }

/-- The transition counts sorted by edge. -/
def edges (m : Monitor) : List (String × Nat) := m.transitions.mergeSort fun a b => a.1 ≤ b.1

end Monitor

end HotLoop
