import HotLoop.Float.Double
/-!
# HotLoop.Text.Duration

Spans of time as signed 64-bit counts of nanoseconds, and their text.

Reading: an optional sign, then one or more terms, each a decimal number
with an optional fraction followed by a unit (`300ms`, `1h2m3.5s`, `-1.5h`);
`0` alone is zero. The units are `ns`, `us` (also written `µs` or `μs`),
`ms`, `s`, `m` and `h`. The integer part of a term must stay within `2^63`
nanoseconds; the fraction is scaled to the unit in double precision (the
power of ten it is divided by built up one multiplication at a time) and
truncated, so a fraction can never make a term overflow by itself, only the
sum can.

Writing: below one second, the largest of `ns`, `µs`, `ms` that keeps the
number at least 1, with the fraction's trailing zeros dropped (`1.5ms`,
`999ns`, `0s` for zero); from one second on, hours, minutes and seconds with
empty leading parts left out (`1h0m0s`, `2m3.5s`).
-/

namespace HotLoop.Duration

/-- The largest count: `2^63 - 1` nanoseconds. -/
def maxNanos : Int := 9223372036854775807

/-- `2^63`, one past the largest count. -/
def limit : Nat := 9223372036854775808

/-- Nanoseconds in each unit name. -/
def unitNanos : List (String × Nat) :=
  [("ns", 1), ("us", 1000), ("µs", 1000), ("μs", 1000), ("ms", 1000000),
   ("s", 1000000000), ("m", 60000000000), ("h", 3600000000000)]

/-- Split off the leading decimal digits. -/
def spanDigits (cs : List Char) : List Char × List Char :=
  (cs.takeWhile Char.isDigit, cs.dropWhile Char.isDigit)

/-- The value of the digits, or `none` once it passes `2^63`. -/
def intPart (ds : List Char) : Option Nat :=
  ds.foldlM (fun x c =>
    if x > limit / 10 then none
    else
      let y := x * 10 + (c.toNat - '0'.toNat)
      if y > limit then none else some y) 0

/-- The value of the fraction digits and how many were taken: digits stop
counting once one more would pass `2^63`. -/
def fracPart (ds : List Char) : Nat × Nat :=
  let (x, taken, _) := ds.foldl (fun (x, taken, full) c =>
    if full then (x, taken, true)
    else if x > (limit - 1) / 10 then (x, taken, true)
    else
      let y := x * 10 + (c.toNat - '0'.toNat)
      if y > limit then (x, taken, true) else (y, taken + 1, false)) (0, 0, false)
  (x, taken)

/-- `10^k` in double precision, as `k` multiplications by ten, each rounded. -/
def tenPower (k : Nat) : Double :=
  (List.range k).foldl (fun s _ => s.mul (Double.ofUInt64 10)) (Double.ofUInt64 1)

/-- One term `digits[.digits]unit` at the head of `cs`: its nanoseconds
and the rest, or `none` when it is malformed or overflows. -/
def term (cs : List Char) : Option (Nat × List Char) := do
  let (whole, rest) := spanDigits cs
  let (frac, rest, hasFrac) := match rest with
    | '.' :: r => let (f, r) := spanDigits r; (f, r, !f.isEmpty)
    | r => ([], r, false)
  if whole.isEmpty && !hasFrac then none
  let unit := rest.takeWhile fun c => c != '.' && !c.isDigit
  let rest := rest.dropWhile fun c => c != '.' && !c.isDigit
  let u ← (unitNanos.find? (·.1 == String.ofList unit)).map (·.2)
  let v ← intPart whole
  if v > limit / u then none
  let v := v * u
  let (f, taken) := fracPart frac
  let v := if f > 0 then
      v + ((Double.ofUInt64 f.toUInt64).mul
        ((Double.ofUInt64 u.toUInt64).div (tenPower taken))).truncInt64.toInt.toNat
    else v
  if v > limit then none
  return (v, rest)

/-- The terms of a duration, summed, while the sum stays within `2^63`;
`fuel` bounds the number of terms. -/
def terms : Nat → List Char → Nat → Option Nat
  | _, [], acc => some acc
  | 0, _, _ => none
  | fuel + 1, cs, acc => do
    let (v, rest) ← term cs
    if acc + v > limit then none
    terms fuel rest (acc + v)

/-- The nanoseconds a duration text stands for. -/
def read? (s : String) : Option Int :=
  let cs := s.toList
  let (neg, cs) := match cs with
    | '-' :: r => (true, r)
    | '+' :: r => (false, r)
    | r => (false, r)
  if cs == ['0'] then some 0
  else if cs.isEmpty then none
  else do
    let d ← terms cs.length cs 0
    if neg then return -(d : Int)
    if (d : Int) > maxNanos then none
    return d

/-- The fraction `v / 10^prec` with trailing zeros dropped, as `.ddd` (empty
when the fraction is zero), and the integer part. -/
def fraction (v prec : Nat) : String × Nat :=
  let ds := (List.range prec).map fun i => v / Nat.pow 10 i % 10
  let kept := ds.dropWhile (· == 0)
  let text := String.ofList (kept.reverse.map fun d => Char.ofNat (d + '0'.toNat))
  (if kept.isEmpty then "" else "." ++ text, v / Nat.pow 10 prec)

/-- The text of a duration. -/
def text (d : Int) : String :=
  let u := d.natAbs
  let sign := if d < 0 then "-" else ""
  if u = 0 then "0s"
  else if u < 1000000000 then
    let (prec, unit) :=
      if u < 1000 then (0, "ns") else if u < 1000000 then (3, "µs") else (6, "ms")
    let (f, i) := fraction u prec
    sign ++ toString i ++ f ++ unit
  else
    let (f, secs) := fraction u 9
    let s := toString (secs % 60) ++ f ++ "s"
    let mins := secs / 60
    if mins = 0 then sign ++ s
    else
      let m := toString (mins % 60) ++ "m" ++ s
      let hours := mins / 60
      if hours = 0 then sign ++ m else sign ++ toString hours ++ "h" ++ m

/-- Round to a multiple of `m`, halves away from zero; a result past the
range of counts sticks at its end. A non-positive `m` leaves `d` alone. -/
def round (d m : Int) : Int :=
  if m ≤ 0 then d
  else
    let r := d.natAbs % m.natAbs
    if d < 0 then
      if r + r < m.natAbs then d + r
      else max (d - m + r) (-maxNanos - 1)
    else
      if r + r < m.natAbs then d - r
      else min (d + m - r) maxNanos

end HotLoop.Duration
