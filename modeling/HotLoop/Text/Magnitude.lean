import HotLoop.Float.Double
import HotLoop.Float.Log
/-!
# HotLoop.Text.Magnitude

Numbers written for people: counts with their digits grouped by threes
(`1,234,567`, `-1`), byte sizes in powers of 1024 (`64 KiB`, `1.0 MiB`,
`48 B`), fractions as percentages with two places, and columns padded with
blanks.

A byte size below 10 is written exactly. Otherwise the unit is the power of
1024 given by the whole part of `log n / log 1024`, with both logarithms
rounded to doubles, and the size in that unit is rounded to a tenth (a half
rounds up); it keeps its tenth when below 10 and is rounded to a whole number
otherwise. The rounded logarithms put a size just below a power of 1024, such
as `2^50 - 1`, in the unit of that power (`1.0 PiB`).
-/

namespace HotLoop.Text

/-- The digits of `n` in groups of three, separated by commas. -/
def grouped (n : Nat) : String :=
  let ds := (toString n).toList.reverse
  let rec go : List Char → Nat → List Char
    | [], _ => []
    | c :: r, k => (if k > 0 && k % 3 == 0 then [',', c] else [c]) ++ go r (k + 1)
  String.ofList (go ds 0).reverse

/-- A signed count with grouped digits. -/
def count (n : Int) : String := (if n < 0 then "-" else "") ++ grouped n.natAbs

/-- The names of the powers of 1024. -/
def binaryUnits : List String := ["B", "KiB", "MiB", "GiB", "TiB", "PiB", "EiB"]

/-- The power of 1024 a size of `n ≥ 10` bytes is written in, at most 6 for a
64-bit size. -/
def binaryExponent (n : Nat) : Nat :=
  (HotLoop.Float.log (Float.ofNat n) / HotLoop.Float.log 1024).floor.toUInt64.toNat

/-- A byte size. -/
def bytes (n : Nat) : String :=
  if n < 10 then toString n ++ " B"
  else
    let e := binaryExponent n
    let v := ((Float.ofNat n / Float.ofNat (Nat.pow 1024 e)) * 10 + 0.5).floor / 10
    let places := if v < 10 then 1 else 0
    HotLoop.Float.fixed v.toBits places ++ " " ++ binaryUnits.getD e "B"

/-- A fraction as a percentage with two places. -/
def percent (f : Double) : String :=
  HotLoop.Float.fixed (f.mul (Double.ofFloat 100)).bits 2 ++ "%"

/-- `s` followed by blanks up to width `w`. -/
def padRight (s : String) (w : Nat) : String := String.ofList (s.toList.rightpad w ' ')

/-- `s` after blanks up to width `w`. -/
def padLeft (s : String) (w : Nat) : String := String.ofList (s.toList.leftpad w ' ')

end HotLoop.Text
