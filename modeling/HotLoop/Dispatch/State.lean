/-!
# HotLoop.Dispatch.State

The life of a loop site under the dispatcher. Every site starts
interpreted; once it runs it is profiled; a hot site is compiled, which
lasts for one compile, and then runs compiled; a site whose compilation
failed stays interpreted for good. An evicted artifact sends a compiled
site back to compiling.
-/

namespace HotLoop

/-- The execution state of a loop site. -/
inductive SiteState where
  | interpreted
  | profiling
  | compiling
  | compiled
  | permanentlyInterpreted
  deriving DecidableEq, Repr, Inhabited

namespace SiteState

/-- States by number, in the order above. -/
def ofNat? : Nat → Option SiteState
  | 0 => some .interpreted
  | 1 => some .profiling
  | 2 => some .compiling
  | 3 => some .compiled
  | 4 => some .permanentlyInterpreted
  | _ => none

/-- The name of a state. -/
def name : SiteState → String
  | .interpreted => "interpreted"
  | .profiling => "profiling"
  | .compiling => "compiling"
  | .compiled => "compiled"
  | .permanentlyInterpreted => "permanently-interpreted"

/-- The name of a state number; `unknown` beyond the last. -/
def nameOf (n : Nat) : String := ((ofNat? n).map name).getD "unknown"

/-- The states a state may move to. -/
def successors : SiteState → List SiteState
  | .interpreted => [.profiling, .compiling, .compiled, .permanentlyInterpreted]
  | .profiling => [.compiling, .compiled, .permanentlyInterpreted]
  | .compiling => [.compiled, .permanentlyInterpreted]
  | .compiled => [.compiling, .permanentlyInterpreted]
  | .permanentlyInterpreted => []

/-- Whether `a → b` is a transition of the state machine. -/
def canMove (a b : SiteState) : Bool := a.successors.contains b

/-- No state moves to itself. -/
theorem canMove_self (a : SiteState) : a.canMove a = false := by
  cases a <;> decide

end SiteState

end HotLoop
