import HotLoop.Error
import HotLoop.Text.Quote
import HotLoop.Text.Lower
/-!
# HotLoop.Plan.Strategy

The transformations a compiled loop can get, in priority order: hoisting
of invariant expressions, strength reduction of multiplications by
constants, vector lanes for reductions, unrolling, and branch hints.

A set of strategies is a bit mask (bit `k` for the `k`-th strategy); its
code is part of a compiled loop's fingerprint, and its text lists the members
in priority order joined by `+`, or `none` for the empty set.
-/

namespace HotLoop

/-- Loop transformations. -/
inductive Strategy where
  | hoisting | strengthReduction | vectorization | unrolling | branchHints
  deriving DecidableEq, Repr, Inhabited

namespace Strategy

/-- All strategies in priority order. -/
def all : List Strategy := [hoisting, strengthReduction, vectorization, unrolling, branchHints]

/-- The bit of a strategy. -/
def bit : Strategy → Nat
  | hoisting => 0 | strengthReduction => 1 | vectorization => 2 | unrolling => 3 | branchHints => 4

/-- The configuration name of a strategy. -/
def name : Strategy → String
  | hoisting => "hoisting" | strengthReduction => "strength-reduction"
  | vectorization => "vectorization" | unrolling => "unrolling" | branchHints => "branch-hints"

/-- The name of the strategy with number `n`, `unknown` beyond the last. -/
def nameOf (n : Nat) : String :=
  match all[n]? with
  | some s => s.name
  | none => "unknown"

/-- A strategy by its configuration name, ignoring case and surrounding
white space. -/
def parse (s : String) : Except Error Strategy :=
  let n := Text.lower (Text.trimSpace s)
  match all.find? (·.name == n) with
  | some st => .ok st
  | none => .error (.note ("unknown strategy " ++ Text.quote n))

end Strategy

/-- A set of strategies as a bit mask. -/
structure StrategySet where
  code : UInt32 := 0
  deriving DecidableEq, Repr, Inhabited

namespace StrategySet

def has (s : StrategySet) (st : Strategy) : Bool := (s.code >>> st.bit.toUInt32) &&& 1 == 1

def insert (s : StrategySet) (st : Strategy) : StrategySet := ⟨s.code ||| (1 <<< st.bit.toUInt32)⟩

def isEmpty (s : StrategySet) : Bool := s.code == 0

/-- The members in priority order. -/
def members (s : StrategySet) : List Strategy := Strategy.all.filter s.has

/-- `none` for the empty set, else the member names joined by `+`. -/
def text (s : StrategySet) : String :=
  if s.isEmpty then "none" else "+".intercalate (s.members.map Strategy.name)

/-- The set of the named strategies; the first unknown name fails. -/
def parse (names : List String) : Except Error StrategySet :=
  names.foldlM (fun s n => do pure (s.insert (← Strategy.parse n))) {}

end StrategySet

end HotLoop
