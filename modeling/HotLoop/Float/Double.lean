import HotLoop.Float.Text
/-!
# HotLoop.Float.Double

`Double` is a double-precision float kept as its IEEE bit pattern, so that a
NaN keeps its payload wherever it is stored, copied or compared: two doubles
are equal exactly when their patterns are.

Arithmetic is the hardware's on the numbers, with the NaN that comes out
fixed by a rule on patterns:

* if an operand is a NaN, the result is the first NaN operand, made quiet;
* if the operands are numbers and the operation has no numeric answer
  (`0/0`, `∞ - ∞`, `0·∞`), the result is the default NaN `0xfff8000000000000`.

Division, the conversion of an unsigned word and the comparisons are
computed from the patterns in exact arithmetic (`HotLoop.Float.Binary`), the
way the hardware rounds and compares, so that statements about them are
statements about numbers. Negation flips the sign bit only.

The remainder of truncated division, `x - trunc(x / y)·y`, is computed
exactly. The exact remainder is always a double: it is smaller than `|y|` and
a multiple of the smaller of the two significand units, so the result carries
no rounding at all. Its sign is the sign of `x` (a zero remainder keeps the
sign of `x` too). A zero divisor, an infinite dividend or a NaN operand give
the quiet NaN with payload 1 (`0x7ff8000000000001`); an infinite divisor
leaves a finite `x` unchanged.

Decimal text is read as an optional sign, digits with an optional point and
an optional exponent `e±n`: `readDecimal` gives the significand and the power
of ten, and `Double.read?` rounds them to the nearest double, a tie going to
the even significand, so reading the text written for a double gives back the
same double.
-/

/-! ## The exact remainder -/

namespace HotLoop.Float

/-- The NaN produced by failed float operations of this library. -/
def quietNaN : UInt64 := 0x7ff8000000000001

/-- Exact remainder of `|x|` by `|y|` for finite decodings with `y ≠ 0`,
scaled to the smaller exponent: `X % Y` with `X = mx·2^(ex-e)`,
`Y = my·2^(ey-e)`, `e = min ex ey`. -/
def remainderBits (x y : Binary) : UInt64 :=
  let e := min x.e y.e
  let bx := x.m <<< (x.e - e).toNat
  let yScaled := y.m <<< (y.e - e).toNat
  let r := bx % yScaled
  if r = 0 then (if x.neg then 0x8000000000000000 else 0)
  else Binary.roundRatio x.neg (r * (if e ≥ 0 then Nat.pow 2 e.toNat else 1))
      (if e ≥ 0 then 1 else Nat.pow 2 (-e).toNat)

end HotLoop.Float

/-- `x - trunc(x / y)·y` exactly, with the sign of `x`. -/
def Float.truncRem (x y : Float) : Float :=
  open HotLoop.Float in
  match Binary.ofBits x.toBits, Binary.ofBits y.toBits with
  | .finite bx, .finite byy =>
    if byy.m = 0 then Float.ofBits quietNaN
    else if bx.m = 0 then x
    else Float.ofBits (remainderBits bx byy)
  | .finite _, .inf _ => x
  | _, _ => Float.ofBits quietNaN

/-! ## Reading decimal text -/

namespace HotLoop.Float

/-- Digits of a decimal text, as the number they spell and their count. -/
def spellDigits (cs : List Char) : Nat × Nat :=
  cs.foldl (fun (n, k) c => (n * 10 + (c.toNat - '0'.toNat), k + 1)) (0, 0)

/-- Split off a leading sign. -/
def splitSign : List Char → Bool × List Char
  | '-' :: rest => (true, rest)
  | '+' :: rest => (false, rest)
  | cs => (false, cs)

/-- The decimal `digits[.digits][e[±]digits]` as a significand and a power
of ten, or `none` when the text is not of that form. -/
def readDecimal (cs : List Char) : Option (Nat × Int) :=
  let whole := cs.takeWhile Char.isDigit
  let rest := cs.dropWhile Char.isDigit
  let (frac, rest) := match rest with
    | '.' :: r => (r.takeWhile Char.isDigit, r.dropWhile Char.isDigit)
    | r => ([], r)
  if whole.isEmpty ∧ frac.isEmpty then none
  else
    let (m, _) := spellDigits (whole ++ frac)
    let shift : Int := -(frac.length : Int)
    match rest with
    | [] => some (m, shift)
    | c :: r =>
      if c = 'e' ∨ c = 'E' then
        let (eneg, ds) := splitSign r
        if ds.isEmpty ∨ !ds.all Char.isDigit then none
        else
          let (x, _) := spellDigits ds
          some (m, shift + (if eneg then -(x : Int) else x))
      else none

end HotLoop.Float


namespace HotLoop

/-- A double, as its bit pattern. -/
structure Double where
  bits : UInt64
  deriving DecidableEq, Repr, Inhabited

namespace Double

/-- The pattern's meaning as a hardware float. -/
def toFloat (d : Double) : Float := Float.ofBits d.bits

/-- A hardware float as a pattern. -/
def ofFloat (x : Float) : Double := ⟨x.toBits⟩

/-- Exponent field all ones and a nonzero fraction. -/
def isNaN (d : Double) : Bool :=
  (d.bits >>> 52) &&& 0x7ff == 0x7ff && d.bits &&& 0xfffffffffffff != 0

/-- The same NaN with its quiet bit set. -/
def quiet (d : Double) : Double := ⟨d.bits ||| 0x8000000000000⟩

/-- The NaN an operation without numeric answer produces. -/
def defaultNaN : Double := ⟨0xfff8000000000000⟩

/-- The NaN of failed float operations of this library (payload 1). -/
def nan : Double := ⟨HotLoop.Float.quietNaN⟩

/-- The result of a binary operation computed as `r` from `a` and `b`, with
the NaN rule applied. -/
def settle (a b : Double) (r : Float) : Double :=
  if a.isNaN then a.quiet
  else if b.isNaN then b.quiet
  else if r.isNaN then defaultNaN
  else ofFloat r

def add (a b : Double) : Double := settle a b (a.toFloat + b.toFloat)
def sub (a b : Double) : Double := settle a b (a.toFloat - b.toFloat)
def mul (a b : Double) : Double := settle a b (a.toFloat * b.toFloat)
/-- The quotient rounded to the nearest double, a tie going to the even
significand. A zero divisor gives an infinity, or the default NaN for `0/0`;
an infinite dividend gives an infinity, or the default NaN for `∞/∞`; an
infinite divisor gives a zero. The sign is the exclusive or of the signs. -/
def div (a b : Double) : Double :=
  if a.isNaN then a.quiet
  else if b.isNaN then b.quiet
  else
    let neg := HotLoop.Float.signOf a.bits != HotLoop.Float.signOf b.bits
    match HotLoop.Float.Binary.ofBits a.bits, HotLoop.Float.Binary.ofBits b.bits with
    | .finite x, .finite y =>
      if y.m = 0 then (if x.m = 0 then defaultNaN else ⟨HotLoop.Float.infBits neg⟩)
      else if x.e ≤ y.e then ⟨HotLoop.Float.Binary.roundRatio neg x.m (y.m <<< (y.e - x.e).toNat)⟩
      else ⟨HotLoop.Float.Binary.roundRatio neg (x.m <<< (x.e - y.e).toNat) y.m⟩
    | .finite _, .inf _ => ⟨if neg then 0x8000000000000000 else 0⟩
    | .inf _, .finite _ => ⟨HotLoop.Float.infBits neg⟩
    | _, _ => defaultNaN

/-- Exact truncated remainder; see `Float.truncRem`. -/
def rem (a b : Double) : Double := ofFloat (a.toFloat.truncRem b.toFloat)

/-- Negation flips the sign bit, NaNs included. -/
def neg (a : Double) : Double := ⟨a.bits ^^^ 0x8000000000000000⟩

/-- Where a double that is not a NaN lies on the number line, as an integer
that orders like its value: the pattern without its sign bit, negated for a
negative sign. Both zeros lie at 0, the infinities at the two ends. -/
def rank (d : Double) : Int :=
  let mag : Int := (d.bits &&& 0x7fffffffffffffff).toNat
  if d.bits >>> 63 = 1 then -mag else mag

/-- IEEE order: a NaN is comparable to nothing. -/
def lt (a b : Double) : Bool := !a.isNaN && !b.isNaN && decide (a.rank < b.rank)
def le (a b : Double) : Bool := !a.isNaN && !b.isNaN && decide (a.rank ≤ b.rank)

/-- IEEE equality: a NaN equals nothing, and the two zeros are equal. -/
def numEq (a b : Double) : Bool := !a.isNaN && !b.isNaN && decide (a.rank = b.rank)

/-- The double nearest to an integer. -/
def ofInt64 (n : Int64) : Double := ofFloat n.toFloat

/-- The double nearest to an unsigned word, a tie going to the even
significand. -/
def ofUInt64 (n : UInt64) : Double := ⟨HotLoop.Float.Binary.roundRatio false n.toNat 1⟩

/-- The integer part of a double, rounded toward zero; NaN and values
outside the signed 64-bit range give the least integer, like the hardware
conversion does. -/
def truncInt64 (d : Double) : Int64 :=
  let x := d.toFloat
  if d.isNaN ∨ x ≥ 9223372036854775808.0 ∨ x < -9223372036854775808.0 then -9223372036854775808
  else x.toInt64

/-- A double read from decimal text; NaN has payload 1. -/
def read? (s : String) : Option Double :=
  let (neg, cs) := HotLoop.Float.splitSign s.toList
  let word := (String.ofList cs).toLower
  if word = "nan" then some nan
  else if word = "inf" ∨ word = "infinity" then some ⟨HotLoop.Float.infBits neg⟩
  else (HotLoop.Float.readDecimal cs).map fun (m, x) => ⟨HotLoop.Float.ofDecimal neg m x⟩

/-- The double nearest to `± digits·10^exp10`. -/
def ofDecimal (neg : Bool) (digits : Nat) (exp10 : Int) : Double :=
  ⟨HotLoop.Float.ofDecimal neg digits exp10⟩

/-- Zero of either sign. -/
def isZero (d : Double) : Bool := d.bits &&& 0x7fffffffffffffff == 0

/-- Shortest text that reads back; see `HotLoop.Float.Text`. -/
def text (d : Double) : String := HotLoop.Float.Style.value.render d.bits

instance : OfScientific Double where
  ofScientific m s e := ofDecimal false m (if s then -(e : Int) else e)

theorem neg_neg (a : Double) : a.neg.neg = a := by
  cases a
  simp only [neg, UInt64.xor_assoc, UInt64.xor_self, UInt64.xor_zero]

end Double

end HotLoop
