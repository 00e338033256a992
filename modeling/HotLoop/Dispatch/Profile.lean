import HotLoop.Analysis.Complexity
import HotLoop.Float.Double
/-!
# HotLoop.Dispatch.Profile

Execution profiles of loop sites, and the gate that says when a site is
hot enough to compile. A profile counts executions, iterations and time
(nanoseconds, wrapping like 64-bit counters), keeps running means of
iterations and time per execution (`m += (x - m) / n` in double
precision, the time mean truncated to whole nanoseconds), and the site's
tier and access pattern once observed.

A site is hot when it has run at least `threshold` times and has done
enough work: at least `minIterations` iterations, or at least `minElapsed`
nanoseconds, in total.
-/

namespace HotLoop

/-- The gate of compilation. -/
structure Gate where
  /-- Executions before a site is a candidate; zero or less takes 50. -/
  threshold : Int := 50
  minIterations : Int64 := 64
  /-- Nanoseconds. -/
  minElapsed : Int64 := 1000000
  deriving Repr, Inhabited

/-- The execution history of one site. -/
structure Profile where
  id : String
  executions : UInt64 := 0
  iterations : UInt64 := 0
  elapsed : Int64 := 0
  avgIterations : Double := ⟨0⟩
  avgElapsed : Int64 := 0
  tier : Tier := .trivial
  access : Access := .scalar
  observed : Bool := false
  deriving Inhabited

/-- Record one execution of `iterations` iterations (none when negative)
taking `elapsed` nanoseconds. -/
def Profile.record (p : Profile) (iterations elapsed : Int64) : Profile :=
  let iterations := if iterations < 0 then 0 else iterations
  let executions := p.executions + 1
  let n := Double.ofUInt64 executions
  let avgIt := p.avgIterations.add ((Double.ofInt64 iterations).sub p.avgIterations |>.div n)
  let avgEl := p.avgElapsed +
    ((Double.ofInt64 elapsed).sub (Double.ofInt64 p.avgElapsed) |>.div n).truncInt64
  { p with executions := executions, iterations := p.iterations + iterations.toUInt64,
           elapsed := p.elapsed + elapsed, avgIterations := avgIt, avgElapsed := avgEl }

/-- Profiles of all sites seen, one per id. -/
structure Profiler where
  gate : Gate
  profiles : List Profile := []
  deriving Inhabited

namespace Profiler

/-- A profiler with no profiles; a threshold of zero or less takes 50. -/
def new (g : Gate) : Profiler :=
  { gate := { g with threshold := if g.threshold ≤ 0 then 50 else g.threshold } }

/-- The profile of `id`. -/
def get? (a : Profiler) (id : String) : Option Profile := a.profiles.find? (·.id = id)

/-- Change the profile of `id`, creating it first when missing. -/
def update (a : Profiler) (id : String) (f : Profile → Profile) : Profiler :=
  if a.profiles.any (·.id = id) then
    { a with profiles := a.profiles.map fun p => if p.id = id then f p else p }
  else { a with profiles := a.profiles ++ [f { id := id }] }

/-- Record one execution of site `id`. -/
def record (a : Profiler) (id : String) (iterations elapsed : Int64) : Profiler :=
  a.update id (·.record iterations elapsed)

/-- Store the classification of site `id`. -/
def observe (a : Profiler) (id : String) (tier : Tier) (access : Access) : Profiler :=
  a.update id fun p => { p with tier := tier, access := access, observed := true }

/-- Forget site `id`: its next execution counts as the first. -/
def reset (a : Profiler) (id : String) : Profiler :=
  { a with profiles := a.profiles.filter (·.id ≠ id) }

/-- Whether site `id` is hot. -/
def shouldCompile (a : Profiler) (id : String) : Bool :=
  match a.get? id with
  | none => false
  | some p =>
    p.executions.toNat ≥ a.gate.threshold.toNat ∧
      (p.iterations ≥ a.gate.minIterations.toUInt64 ∨ p.elapsed ≥ a.gate.minElapsed)

/-- All profiles, most total time first, then by id. -/
def ranked (a : Profiler) : List Profile :=
  a.profiles.mergeSort fun p q => p.elapsed > q.elapsed ∨ (p.elapsed = q.elapsed ∧ p.id ≤ q.id)

/-! ## Commands -/

/-- What can be asked of a profiler. -/
inductive Command where
  | record (id : String) (iterations elapsed : Int64)
  | observe (id : String) (tier : Tier) (access : Access)
  | reset (id : String)
  | shouldCompile (id : String)
  | profile (id : String)
  | profiles

/-- The answer to a profiler command. -/
inductive Reply where
  | hot (b : Bool)
  | ok
  | size (n : Nat)
  | profile (p : Option Profile)
  | profiles (ps : List Profile)

/-- Carry out one command; a record answers whether the site is now hot. -/
def step (a : Profiler) : Command → Reply × Profiler
  | .record id n e => let a := a.record id n e; (.hot (a.shouldCompile id), a)
  | .observe id t acc => (.ok, a.observe id t acc)
  | .reset id => let a := a.reset id; (.size a.profiles.length, a)
  | .shouldCompile id => (.hot (a.shouldCompile id), a)
  | .profile id => (.profile (a.get? id), a)
  | .profiles => (.profiles a.ranked, a)

/-- Carry out commands in order: every reply, and the profiler left. -/
def run (a : Profiler) : List Command → List Reply × Profiler
  | [] => ([], a)
  | c :: cs =>
    let (r, a) := a.step c
    let (rs, a) := a.run cs
    (r :: rs, a)

end Profiler

end HotLoop
