import HotLoop.Error
import HotLoop.Value.Basic
import HotLoop.Shape.Basic
/-!
# HotLoop.Eval.Pass

One execution of a loop, as interpreted and compiled code both see it: the
header it starts from and the outcome it ends with.

* The header is evaluated once when the loop is entered: the bounds and
  step of a counted loop, the elements of a collection loop. A counted loop
  runs `trips` times, a count taken on 64-bit words: the distance from
  `start` to `stop` is a difference of two signed words read back unsigned,
  and the step's magnitude divides it, rounded up.
* A statement goes on, or leaves its block by `break`, `continue` or
  `return` with a value; a run of a loop's iterations ends in a signal or an
  error and has started some number of iterations. Interpreted and compiled
  loops report the same way: an error raised at a node is a runtime error at
  the node's position, and an error leaving a loop records the loop on its
  loop stack.
-/

namespace HotLoop

/-! ## The header -/

/-- Header values of one loop execution. -/
structure Header where
  start : Int64 := 0
  stop : Int64 := 0
  step : Int64 := 1
  elems : List Value := []
  deriving Inhabited

/-- `⌈a / b⌉` on unsigned words: the quotient, and one more when the
division leaves a remainder. -/
def ceilDiv (a b : UInt64) : UInt64 :=
  let n := a / b
  if a % b ≠ 0 then n + 1 else n

/-- The trip count of a counted loop, as the word it is computed in: the
distance to `stop` in the direction of the step, a difference of signed
words read back unsigned, over the step's magnitude, rounded up; 0 when the
step points away from `stop` or is 0. -/
def Header.tripWord (h : Header) : UInt64 :=
  if h.step > 0 ∧ h.start < h.stop then ceilDiv (h.stop - h.start).toUInt64 h.step.toUInt64
  else if h.step < 0 ∧ h.start > h.stop then ceilDiv (h.start - h.stop).toUInt64 (-h.step).toUInt64
  else 0

/-- The number of iterations of a counted loop. -/
def Header.trips (h : Header) : Nat := h.tripWord.toNat

theorem trips_zero_step (h : Header) (hs : h.step = 0) : h.trips = 0 := by
  simp [Header.trips, Header.tripWord, hs]

/-! ## The outcome -/

/-- What a statement tells its block. -/
inductive Signal where
  | none
  | brk
  | cont
  | ret (v : Value)
  deriving Inhabited, Repr

/-- The name of a signal in reports. -/
def Signal.name : Signal → String
  | .none => "none" | .brk => "break" | .cont => "continue" | .ret _ => "return"

/-- The outcome of running a loop's iterations: the signal or error, and
how many iterations were started. -/
structure Pass where
  result : Except Error Signal
  count : Nat

/-- The defect a run of compiled code reports before its first iteration,
if any: an internal error with no iteration started. -/
def Pass.defect? (pass : Pass) : Option Error :=
  match pass.result with
  | .error e => if e.cause = .internal ∧ pass.count = 0 then some e else none
  | .ok _ => none

/-- The error of running out of fuel. -/
def Error.outOfFuel : Error := .note "step limit reached"

/-- Locate an error at a node, as a runtime error. -/
def Error.at (e : Error) (p : Pos) : Error := e.locate .runtime p.line p.col

/-- The loop stack entry of a loop. -/
def Loop.frameEntry (l : Loop) : LoopFrame := ⟨l.id, l.pos.line, l.pos.col⟩

end HotLoop
