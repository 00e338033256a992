/-!
# HotLoop.Op

The operators of the loop language. One type serves binary and unary
positions: a program may write any operator anywhere, and applying one where
it has no meaning is a type mismatch reported with the operator's name, so the
name of every operator is part of the error texts.

Each operator has a one-byte code; the code is what the structural hash of a
loop sees, so two loops that differ in one operator never share a shape.
-/

namespace HotLoop

/-- Operators, listed in the order of their codes (`invalid` is code 0). -/
inductive Op where
  | invalid
  | add | sub | mul | div | mod
  | shl | shr
  | band | bor | bxor
  | lt | le | gt | ge | eq | ne
  | and | or
  | neg | not
  deriving DecidableEq, Repr, Inhabited

namespace Op

/-- Every operator once, in code order. -/
def all : List Op :=
  [invalid, add, sub, mul, div, mod, shl, shr, band, bor, bxor,
   lt, le, gt, ge, eq, ne, and, or, neg, not]

/-- The one-byte code of an operator: its position in `all`. -/
def code : Op → UInt8
  | invalid => 0 | add => 1 | sub => 2 | mul => 3 | div => 4 | mod => 5
  | shl => 6 | shr => 7 | band => 8 | bor => 9 | bxor => 10
  | lt => 11 | le => 12 | gt => 13 | ge => 14 | eq => 15 | ne => 16
  | and => 17 | or => 18 | neg => 19 | not => 20

/-- The written name of an operator. Unary minus is `neg`, so that `-` always
names subtraction; `?` stands for the invalid operator. -/
def name : Op → String
  | invalid => "?" | add => "+" | sub => "-" | mul => "*" | div => "/" | mod => "%"
  | shl => "<<" | shr => ">>" | band => "&" | bor => "|" | bxor => "^"
  | lt => "<" | le => "<=" | gt => ">" | ge => ">=" | eq => "==" | ne => "!="
  | and => "&&" | or => "||" | neg => "neg" | not => "!"

/-- The operator with a given name, if any. -/
def ofName? (s : String) : Option Op :=
  all.find? (·.name == s)

/-- Comparisons yield a bool from two operands: `<` through `!=`. -/
def isComparison : Op → Bool
  | lt | le | gt | ge | eq | ne => true
  | _ => false

/-- Operators that can fail on two well-typed numbers: division and remainder
by zero. -/
def faults : Op → Bool
  | div | mod => true
  | _ => false

/-- The comparison that holds of `(y, x)` exactly when `op` holds of `(x, y)`. -/
def mirror : Op → Op
  | lt => gt | le => ge | gt => lt | ge => le
  | op => op

theorem ofName?_name (op : Op) : ofName? op.name = some op := by
  cases op <;> rfl

end Op

end HotLoop
