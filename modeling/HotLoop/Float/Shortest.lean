import HotLoop.Float.Binary
/-!
# HotLoop.Float.Shortest

The fewest decimal digits that read back as a given double.

A positive double `m·2^e` is the nearest double to every real in its rounding
interval: half the gap to each neighbour on either side, ends included exactly
when `m` is even (a tie reads back to the even significand). The text of the
double is the decimal with the fewest significant digits inside that interval,
and of two such decimals the nearer one.

For `n` significant digits the decimals on the grid of step `10^(k-n+1)`,
where `10^k ≤ v < 10^(k+1)`, that can lie in the interval are the two grid
points around `v`; if any grid point of that step lies in the interval, one of
these two does. So `shortest` tries `n = 1, 2, …` and stops at the first `n`
with a hit. Seventeen digits always suffice for a double.

All numbers are exact: the interval ends are `(4m - δ)·2^(e-2)` and
`(4m + 2)·2^(e-2)` with `δ = 1` just above a power of two and `δ = 2` elsewhere.
-/

namespace HotLoop.Float

/-- A positive exact ratio `num / den`. -/
structure Ratio where
  num : Nat
  den : Nat
  deriving Repr

/-- `x·2^k` as a ratio. -/
def Ratio.ofBinary (x : Nat) (k : Int) : Ratio :=
  if k ≥ 0 then ⟨x * Nat.pow 2 k.toNat, 1⟩ else ⟨x, Nat.pow 2 (-k).toNat⟩

/-- `c·10^p` as a ratio. -/
def Ratio.ofDecimal (c : Nat) (p : Int) : Ratio :=
  if p ≥ 0 then ⟨c * Nat.pow 10 p.toNat, 1⟩ else ⟨c, Nat.pow 10 (-p).toNat⟩

/-- `a ≤ b` by cross multiplication. -/
def Ratio.le (a b : Ratio) : Bool := a.num * b.den ≤ b.num * a.den

/-- `a < b` by cross multiplication. -/
def Ratio.lt (a b : Ratio) : Bool := a.num * b.den < b.num * a.den

/-- `|a - b|` compared with `|c - b|`: whether `a` is strictly nearer to `b`. -/
def Ratio.nearer (a c b : Ratio) : Bool :=
  let da := if Ratio.le a b then b.num * a.den - a.num * b.den else a.num * b.den - b.num * a.den
  let dc := if Ratio.le c b then b.num * c.den - c.num * b.den else c.num * b.den - b.num * c.den
  -- da / (a.den * b.den) < dc / (c.den * b.den)
  da * c.den < dc * a.den

/-- The exponent `k` with `10^k ≤ num/den < 10^(k+1)`, found from a guess by
the bit lengths and corrected in both directions. -/
def Ratio.decimalExponent (v : Ratio) : Int :=
  -- log10 2 is a little above 0.30103; the guess is off by at most a few units
  let bits : Int := (v.num.log2 : Int) - (v.den.log2 : Int)
  let guess : Int := (bits * 30103) / 100000
  let below (k : Int) : Bool := (Ratio.ofDecimal 1 k).le v
  -- walk down while 10^guess is above v, then up while 10^(guess+1) is not above v
  let down := (List.range 8).foldl (fun k _ => if below k then k else k - 1) guess
  (List.range 8).foldl (fun k _ => if below (k + 1) then k + 1 else k) down

/-- Significant digits and the position of the decimal point: the value is
`0.d₁d₂…dₙ · 10^point`. -/
structure Digits where
  digits : List Nat
  point : Int
  deriving Repr, DecidableEq

/-- The decimal digits of a positive natural number, most significant first. -/
def decimalDigits (c : Nat) : List Nat :=
  (Nat.toDigits 10 c).map (fun ch => ch.toNat - '0'.toNat)

/-- Remove trailing zeros from a digit list (the value `c·10^p` is unchanged
when the exponent moves with them). -/
def trimZeros (c : Nat) (p : Int) : Nat × Int :=
  (List.range 20).foldl (fun (c, p) _ => if c ≠ 0 ∧ c % 10 = 0 then (c / 10, p + 1) else (c, p)) (c, p)

/-- The grid point `c·10^p` as digits and point. -/
def Digits.ofGrid (c : Nat) (p : Int) : Digits :=
  let (c, p) := trimZeros c p
  let ds := decimalDigits c
  ⟨ds, p + ds.length⟩

/-- The shortest decimal inside the rounding interval of `m·2^e`, for `m > 0`
and `upperGap` the half-gap factor above (always 2) and `lowerGap` below
(1 just above a power of two, else 2). -/
def shortestOf (m : Nat) (e : Int) (inclusive : Bool) (lowerGap : Nat) : Digits :=
  let v := Ratio.ofBinary (4 * m) (e - 2)
  let lo := Ratio.ofBinary (4 * m - lowerGap) (e - 2)
  let hi := Ratio.ofBinary (4 * m + 2) (e - 2)
  let inside (x : Ratio) : Bool :=
    if inclusive then lo.le x && x.le hi else lo.lt x && x.lt hi
  let k := v.decimalExponent
  let rec go (n : Nat) (fuel : Nat) : Digits :=
    match fuel with
    | 0 => Digits.ofGrid (v.num / v.den) 0
    | fuel + 1 =>
      let p : Int := k - n + 1
      let g := Ratio.ofDecimal 1 p
      -- floor of v on this grid
      let c := (v.num * g.den) / (v.den * g.num)
      let down := Ratio.ofDecimal c p
      let up := Ratio.ofDecimal (c + 1) p
      match inside down, inside up with
      | true, true => if Ratio.nearer up down v then Digits.ofGrid (c + 1) p else Digits.ofGrid c p
      | true, false => Digits.ofGrid c p
      | false, true => Digits.ofGrid (c + 1) p
      | false, false => go (n + 1) fuel
  go 1 17

/-- The shortest decimal of a finite nonzero double, from its decoding. -/
def Binary.shortest (b : Binary) : Digits :=
  let boundary := b.m = Nat.pow 2 fracBits ∧ b.e > minExp
  shortestOf b.m b.e (b.m % 2 == 0) (if boundary then 1 else 2)

end HotLoop.Float
