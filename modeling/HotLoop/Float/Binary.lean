/-!
# HotLoop.Float.Binary

A double seen as numbers: the sign, the integer significand and the power of
two that its bit pattern stands for, and the way back from an exact ratio of
natural numbers to the nearest double.

* `Binary.ofBits` decodes a bit pattern into `±m·2^e` with `m < 2^53`.
* `Binary.roundRatio n d` is the double nearest to `n / d`, a tie going to the
  even significand, overflow to infinity, underflow through the subnormals.

Both work in exact `Nat` arithmetic, so reading a decimal text and writing
the shortest text for a double both rest on statements about numbers, not
about the hardware's operations.
-/

namespace HotLoop.Float

/-- Width of the stored fraction field. -/
def fracBits : Nat := 52

/-- The smallest binary exponent of a significand unit: subnormals are `m·2^-1074`. -/
def minExp : Int := -1074

/-- The largest binary exponent of a finite double's significand unit. -/
def maxExp : Int := 971

/-- A finite double as `(-1)^neg · m · 2^e`. -/
structure Binary where
  neg : Bool
  m : Nat
  e : Int
  deriving Repr, DecidableEq

/-- What a bit pattern stands for. -/
inductive Decoded where
  | finite (b : Binary)
  | inf (neg : Bool)
  | nan
  deriving Repr

/-- The sign bit of a pattern. -/
def signOf (w : UInt64) : Bool := w >>> 63 == 1

/-- The 11-bit exponent field of a pattern. -/
def expField (w : UInt64) : Nat := ((w >>> 52) &&& 0x7ff).toNat

/-- The 52-bit fraction field of a pattern. -/
def fracField (w : UInt64) : Nat := (w &&& 0xfffffffffffff).toNat

/-- Decode a bit pattern. A zero exponent field holds zero and the subnormals,
whose significand has no hidden bit; the all-ones field holds the infinities
and NaNs. -/
def Binary.ofBits (w : UInt64) : Decoded :=
  let ef := expField w
  let f := fracField w
  if ef == 0x7ff then
    if f == 0 then .inf (signOf w) else .nan
  else if ef == 0 then
    .finite ⟨signOf w, f, minExp⟩
  else
    .finite ⟨signOf w, f + Nat.pow 2 fracBits, (ef : Int) - 1075⟩

/-- The pattern of a double with a normalised significand (`2^52 ≤ m < 2^53`),
or of a subnormal (`m < 2^52` at the smallest exponent). -/
def Binary.toBits (b : Binary) : UInt64 :=
  let sign : UInt64 := if b.neg then 0x8000000000000000 else 0
  if b.m < Nat.pow 2 fracBits then
    sign ||| UInt64.ofNat b.m
  else
    sign ||| (UInt64.ofNat (b.e + 1075).toNat <<< 52) ||| UInt64.ofNat (b.m - Nat.pow 2 fracBits)

/-- The pattern of an infinity. -/
def infBits (neg : Bool) : UInt64 :=
  if neg then 0xfff0000000000000 else 0x7ff0000000000000

/-- Quotient of `n·2^-e` by `d`, as a quotient and a remainder over the common
denominator. -/
def scaledDiv (n d : Nat) (e : Int) : Nat × Nat × Nat :=
  if e ≤ 0 then
    let num := n <<< (-e).toNat
    (num / d, num % d, d)
  else
    let den := d <<< e.toNat
    (n / den, n % den, den)

/-- Round a quotient up when the remainder passes half the denominator, or
equals half of it and the quotient is odd. -/
def roundHalfEven (q r den : Nat) : Nat :=
  if 2 * r > den ∨ (2 * r = den ∧ q % 2 = 1) then q + 1 else q

/-- The double nearest to `n / d` (with `d > 0`) and sign `neg`, as a pattern.
The exponent is first guessed from the bit lengths, which puts the quotient
in `[2^52, 2^54)`; one correction brings it under `2^53`. -/
def Binary.roundRatio (neg : Bool) (n d : Nat) : UInt64 :=
  if n = 0 ∨ d = 0 then (if neg then 0x8000000000000000 else 0)
  else
    let guess : Int := (n.log2 : Int) - (d.log2 : Int) - 53
    let e0 := max guess minExp
    let (q0, _, _) := scaledDiv n d e0
    let e := if q0 ≥ Nat.pow 2 53 then e0 + 1 else e0
    let (q, r, den) := scaledDiv n d e
    let q' := roundHalfEven q r den
    let (m, e') := if q' = Nat.pow 2 53 then (Nat.pow 2 52, e + 1) else (q', e)
    if e' > maxExp then infBits neg
    else Binary.toBits ⟨neg, m, e'⟩

/-- The double nearest to `± digits · 10^exp10`. -/
def ofDecimal (neg : Bool) (digits : Nat) (exp10 : Int) : UInt64 :=
  if exp10 ≥ 0 then Binary.roundRatio neg (digits * Nat.pow 10 exp10.toNat) 1
  else Binary.roundRatio neg digits (Nat.pow 10 (-exp10).toNat)

end HotLoop.Float
