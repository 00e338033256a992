/-!
# HotLoop.Float.Log

The natural logarithm of a double, computed by a fixed sequence of double
operations so that its last bit is the same on every machine.

The argument `x = f·2^k` is split with `f` in `[√2/2, √2)`. With
`s = (f-1)/(f+1)`, `log f = 2s + 2s³/3 + 2s⁵/5 + …`, and the tail after
`2s` is a polynomial of degree 14 in `s` whose coefficients are fitted
constants. `log 2` is split in a high part with trailing zeros, so that
`k·ln2hi` is exact, and a low part.

A zero gives minus infinity, a negative number or NaN gives NaN and plus
infinity gives itself.
-/

namespace HotLoop.Float

/-- The high part of `log 2`, with its last 32 bits zero. -/
def ln2Hi : Float := Float.ofBits 0x3fe62e42fee00000

/-- `log 2` minus `ln2Hi`. -/
def ln2Lo : Float := Float.ofBits 0x3dea39ef35793c76

/-- The coefficients of the tail polynomial, `2/3, 2/5, …, 2/15` fitted. -/
def logCoeffs : Fin 7 → Float
  | 0 => Float.ofBits 0x3fe5555555555593
  | 1 => Float.ofBits 0x3fd999999997fa04
  | 2 => Float.ofBits 0x3fd2492494229359
  | 3 => Float.ofBits 0x3fcc71c51d8e78af
  | 4 => Float.ofBits 0x3fc7466496cb03de
  | 5 => Float.ofBits 0x3fc39a09d078c69f
  | 6 => Float.ofBits 0x3fc2f112df3e5244

/-- `√2/2` rounded to a double. -/
def halfSqrt2 : Float := Float.ofBits 0x3fe6a09e667f3bcd

/-- `x = f·2^e` with `f` in `[1/2, 1)`, for a finite nonzero `x`;
subnormal numbers are scaled up first. -/
def splitExponent (x : Float) : Float × Int :=
  let (y, shift) : Float × Int :=
    if (x.toBits >>> 52) &&& 0x7ff == 0 then (x * Float.ofBits 0x4330000000000000, -52) else (x, 0)
  let b := y.toBits
  let e : Int := (((b >>> 52) &&& 0x7ff).toNat : Int) - 1022
  (Float.ofBits ((b &&& 0x800fffffffffffff) ||| 0x3fe0000000000000), e + shift)

/-- The natural logarithm. -/
def log (x : Float) : Float :=
  if x.isNaN || x < 0 then Float.ofBits 0x7ff8000000000001
  else if x == 0 then Float.ofBits 0xfff0000000000000
  else if x.isInf then x
  else
    let (f1, e) := splitExponent x
    let (f1, e) := if f1 < halfSqrt2 then (f1 * 2, e - 1) else (f1, e)
    let f := f1 - 1
    let k := Float.ofInt e
    let s := f / (2 + f)
    let s2 := s * s
    let s4 := s2 * s2
    let c := logCoeffs
    let t1 := s2 * (c 0 + s4 * (c 2 + s4 * (c 4 + s4 * c 6)))
    let t2 := s4 * (c 1 + s4 * (c 3 + s4 * c 5))
    let r := t1 + t2
    let hfsq := 0.5 * f * f
    k * ln2Hi - ((hfsq - (s * (hfsq + r) + k * ln2Lo)) - f)

end HotLoop.Float
