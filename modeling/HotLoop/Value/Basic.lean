import HotLoop.Float.Double
/-!
# HotLoop.Value.Basic

Values of the loop language: nil, 64-bit integers that wrap, doubles, bools
and arrays of values. Scalars have an 8-byte slot word (`Value.bits`) that a
loop frame stores in its arena, and `Value.ofBits` reads a word back given
its kind.

Floats are kept as bit patterns (`HotLoop.Double`), so equality of values is
structural identity with floats compared by pattern: a NaN equals itself.
It is what tells two runs of a program apart. The language's own `==` is in
`HotLoop.Value.Arith`.
-/

namespace HotLoop

/-- The dynamic type of a value. -/
inductive Kind where
  | nil | int | float | bool | array
  deriving DecidableEq, Repr, Inhabited

namespace Kind

/-- The written name of a kind, as it appears in error texts. -/
def name : Kind → String
  | nil => "nil" | int => "int" | float => "float" | bool => "bool" | array => "array"

/-- Scalars fit in one 8-byte arena slot. -/
def scalar : Kind → Bool
  | int | float | bool => true
  | _ => false

/-- Declared size in bytes of a scalar kind; 0 for nil and arrays. -/
def primitiveSize : Kind → Nat
  | int | float => 8
  | bool => 1
  | _ => 0

end Kind

/-- A value. Arrays hold their elements in order. -/
inductive Value where
  | nil
  | int (n : Int64)
  | float (x : Double)
  | bool (b : Bool)
  | array (elems : List Value)
  deriving Inhabited, Repr

namespace Value

/-- The kind of a value. -/
def kind : Value → Kind
  | nil => .nil | int _ => .int | float _ => .float | bool _ => .bool | array _ => .array

/-- Truth as conditions see it: a bool is itself, a number is true when it is
not zero (so a NaN is true), an array when it is not empty, nil never. -/
def truthy : Value → Bool
  | bool b => b
  | int n => n != 0
  | float x => !x.isZero
  | array es => !es.isEmpty
  | nil => false

/-- The 8-byte slot word of a scalar: the two's complement integer, the IEEE
pattern, or 1 and 0 for bools. Nil and arrays have the word 0. -/
def bits : Value → UInt64
  | int n => n.toUInt64
  | float x => x.bits
  | bool b => if b then 1 else 0
  | _ => 0

/-- Read a slot word back as a value of kind `k`. Any nonzero word is a true
bool; nil and arrays have no word and read as nil. -/
def ofBits : Kind → UInt64 → Value
  | .int, w => int w.toInt64
  | .float, w => float ⟨w⟩
  | .bool, w => bool (w != 0)
  | _, _ => nil

mutual
/-- Structural identity: same kind and same contents, floats by bit
pattern, arrays of the same length that agree elementwise. -/
def same : Value → Value → Bool
  | nil, nil => true
  | int a, int b => a == b
  | float a, float b => a == b
  | bool a, bool b => a == b
  | array as, array bs => sameList as bs
  | _, _ => false

/-- `same` on two lists, pairwise, with equal lengths. -/
def sameList : List Value → List Value → Bool
  | [], [] => true
  | a :: as, b :: bs => same a b && sameList as bs
  | _, _ => false
end

mutual
/-- The text of a value: decimal integers, shortest float digits, `true` and
`false`, `nil`, and arrays as `[a, b]`. -/
def text : Value → String
  | nil => "nil"
  | int n => toString n.toInt
  | float x => x.text
  | bool b => if b then "true" else "false"
  | array es => "[" ++ ", ".intercalate (textList es) ++ "]"

/-- The texts of the elements of an array. -/
def textList : List Value → List String
  | [] => []
  | v :: vs => v.text :: textList vs
end

theorem kind_ofBits_scalar {k : Kind} (h : k.scalar = true) (w : UInt64) :
    (ofBits k w).kind = k := by
  cases k <;> simp_all [Kind.scalar, ofBits, kind]

theorem ofBits_bits_int (n : Int64) : ofBits .int (int n).bits = int n := by
  simp [ofBits, bits]

end Value

end HotLoop
