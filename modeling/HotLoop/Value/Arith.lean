import HotLoop.Value.Basic
import HotLoop.Op
import HotLoop.Error
/-!
# HotLoop.Value.Arith

The operators on values.

* Integer arithmetic wraps at 64 bits. Division and remainder truncate toward
  zero and fail on a zero divisor; the most negative integer divided by -1 is
  itself, with remainder 0. Shifts fail on a negative count; a count of 64 or
  more shifts every bit out (zero to the left, the sign to the right).
* An integer meeting a float is converted to the nearest double, and the
  operation is done on doubles; the float remainder is the exact truncated
  remainder (`HotLoop.Double.rem`).
* `&&` and `||` on two values compare truthiness; `==` and `!=` compare
  numbers by value across kinds, floats as IEEE numbers (a NaN differs from
  itself) and everything else structurally.
* Anything else is a type mismatch that names the operand kinds and the
  operator.
-/

namespace HotLoop

/-! ## Integers -/

namespace Int64

/-- Shift left by a nonnegative count; counts of 64 and more give 0. -/
def shiftLeftFull (x : Int64) (n : Int64) : Int64 :=
  if n ≥ 64 then 0 else x <<< n

/-- Arithmetic shift right by a nonnegative count; counts of 64 and more
leave only the sign. -/
def shiftRightFull (x : Int64) (n : Int64) : Int64 :=
  if n ≥ 64 then (if x < 0 then -1 else 0) else x >>> n

end Int64

/-- The type mismatch of a binary operator, naming both operand kinds. -/
def Error.operands (op : Op) (a b : Kind) : Error :=
  .detailed .typeMismatch (a.name ++ " " ++ op.name ++ " " ++ b.name)

/-- `op` on two integers. -/
def intBinary (op : Op) (x y : Int64) : Except Error Value :=
  match op with
  | .add => .ok (.int (x + y))
  | .sub => .ok (.int (x - y))
  | .mul => .ok (.int (x * y))
  | .div => if y = 0 then .error (.fault .divisionByZero) else .ok (.int (x / y))
  | .mod => if y = 0 then .error (.fault .divisionByZero) else .ok (.int (x % y))
  | .shl => if y < 0 then .error (.fault .negativeShift) else .ok (.int (Int64.shiftLeftFull x y))
  | .shr => if y < 0 then .error (.fault .negativeShift) else .ok (.int (Int64.shiftRightFull x y))
  | .band => .ok (.int (x &&& y))
  | .bor => .ok (.int (x ||| y))
  | .bxor => .ok (.int (x ^^^ y))
  | .lt => .ok (.bool (x < y))
  | .le => .ok (.bool (x ≤ y))
  | .gt => .ok (.bool (x > y))
  | .ge => .ok (.bool (x ≥ y))
  | .eq => .ok (.bool (x == y))
  | .ne => .ok (.bool (x != y))
  | .and => .ok (.bool (x != 0 && y != 0))
  | .or => .ok (.bool (x != 0 || y != 0))
  | _ => .error (Error.operands op .int .int)

namespace Value

/-- A number as a double: integers convert to the nearest double. -/
def asFloat? : Value → Option Double
  | int n => some (Double.ofInt64 n)
  | float x => some x
  | _ => none

/-- The language's `==`: numbers of either kind compare by value, floats as
IEEE numbers; values of other kinds compare structurally. -/
def looseEq (a b : Value) : Bool :=
  if a.kind ≠ b.kind then
    match a.asFloat?, b.asFloat? with
    | some x, some y => x.numEq y
    | _, _ => false
  else
    match a, b with
    | float x, float y => x.numEq y
    | _, _ => same a b

/-- `op` on two doubles. -/
def floatBinary (op : Op) (a b : Value) (x y : Double) : Except Error Value :=
  match op with
  | .add => .ok (float (x.add y))
  | .sub => .ok (float (x.sub y))
  | .mul => .ok (float (x.mul y))
  | .div => .ok (float (x.div y))
  | .mod => .ok (float (x.rem y))
  | .lt => .ok (bool (x.lt y))
  | .le => .ok (bool (x.le y))
  | .gt => .ok (bool (y.lt x))
  | .ge => .ok (bool (y.le x))
  | _ => .error (Error.operands op a.kind b.kind)

/-- A binary operator on two values. Both operands are already evaluated:
`&&` and `||` here do not short-circuit. -/
def binary (op : Op) (a b : Value) : Except Error Value :=
  match op with
  | .and => .ok (bool (a.truthy && b.truthy))
  | .or => .ok (bool (a.truthy || b.truthy))
  | .eq => .ok (bool (looseEq a b))
  | .ne => .ok (bool (!looseEq a b))
  | _ =>
    match a, b with
    | int x, int y => intBinary op x y
    | _, _ =>
      match a.asFloat?, b.asFloat? with
      | some x, some y => floatBinary op a b x y
      | _, _ => .error (Error.operands op a.kind b.kind)

/-- A prefix operator: `!` negates truthiness, `neg` negates a number. -/
def unary (op : Op) (v : Value) : Except Error Value :=
  match op, v with
  | .not, v => .ok (bool !v.truthy)
  | .neg, int n => .ok (int (-n))
  | .neg, float x => .ok (float x.neg)
  | op, v => .error (.detailed .typeMismatch (op.name ++ " " ++ v.kind.name))

/-- Element `i` of an array. -/
def index (a i : Value) : Except Error Value :=
  match a, i with
  | array es, int n =>
    if n < 0 then .error (.detailed .indexRange ("index " ++ toString n.toInt ++
      ", length " ++ toString es.length))
    else match es[n.toInt.toNat]? with
      | some v => .ok v
      | none => .error (.detailed .indexRange ("index " ++ toString n.toInt ++
          ", length " ++ toString es.length))
  | a, i => .error (.detailed .typeMismatch (a.kind.name ++ "[" ++ i.kind.name ++ "]"))

theorem binary_div_zero (x : Int64) : binary .div (int x) (int 0) = .error (.fault .divisionByZero) := by
  simp [binary, intBinary]

end Value

end HotLoop
