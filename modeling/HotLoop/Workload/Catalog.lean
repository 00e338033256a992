import HotLoop.Workload.Build
/-!
# HotLoop.Workload.Catalog

The catalog of sample programs: thirteen small loop programs, each with a
default problem size, the global it leaves its answer in, and the answer
itself, computed here directly with the same 64-bit wrapping arithmetic.

The programs cover every loop form and every compiler path: counted, conditional
and collection loops, nesting, an inner `break`, a builtin call (which keeps a
loop interpreted), loop-invariant factors and multiplicative reductions.
-/

namespace HotLoop

open Build

/-- A catalog entry. -/
structure Workload where
  name : String
  description : String
  /-- The problem size used when none is given. -/
  size : Nat
  /-- The global that holds the answer. -/
  result : String
  /-- The program for a problem size. -/
  body : Nat → Build (List Stmt)
  /-- The answer for a problem size. -/
  want : Nat → Int64

/-- A built catalog program, ready to run. -/
structure Program where
  name : String
  description : String
  stmts : List Stmt
  result : String
  want : Value

namespace Workload

/-! ## Answers -/

/-- The sum of `f i` over `i < n`, wrapping. -/
def sumBelow (n : Nat) (f : Nat → Int64) : Int64 :=
  (List.range n).foldl (fun acc i => acc + f i) 0

/-- Whether no `d` from `d` on with `d * d ≤ i` divides `i`; `fuel` bounds
the candidates tried. -/
def noFactorFrom (i : Nat) : Nat → Nat → Bool
  | 0, _ => true
  | fuel + 1, d => d * d > i || (i % d != 0 && noFactorFrom i fuel (d + 1))

/-- Trial division: `i ≥ 2` and no `d ≥ 2` with `d * d ≤ i` divides it. -/
def isPrime (i : Nat) : Bool := i ≥ 2 && noFactorFrom i i 2

/-- The first `i` in `1 .. n - 1` that is a multiple of 97 above `n / 2`, or -1. -/
def firstMultipleAbove (n : Nat) : Int64 :=
  match (List.range' 1 (n - 1)).find? (fun i => i % 97 == 0 && i > n / 2) with
  | some i => Int64.ofNat i
  | none => -1

/-- `Σ_{j ≤ i}` of `j * j` for even `j` and `j` for odd `j`. -/
def parityTerm (i : Nat) : Int64 :=
  sumBelow (i + 1) fun j =>
    if j = 0 then 0 else if j % 2 = 0 then Int64.ofNat j * Int64.ofNat j else Int64.ofNat j

/-! ## The programs -/

/-- `let sum = 0; for i in 0..n { sum += i }`. -/
def sumRange : Workload where
  name := "sum_range"
  description := "for i in 0..n: sum += i"
  size := 1000
  result := "sum"
  body n := all [
    declare "sum" (int 0),
    forRange "i" (int 0) (int (Int64.ofNat n)) [
      compound "sum" .add (ident "i")]]
  want n := sumBelow n Int64.ofNat

/-- `while i <= n { sum = sum + i; i = i + 1 }`. -/
def simpleWhile : Workload where
  name := "simple_while"
  description := "while i <= n: sum = sum + i"
  size := 1000
  result := "sum"
  body n := all [
    declare "sum" (int 0),
    declare "i" (int 1),
    whileDo (bin .le (ident "i") (int (Int64.ofNat n))) [
      assign "sum" (bin .add (ident "sum") (ident "i")),
      assign "i" (bin .add (ident "i") (int 1))]]
  want n := sumBelow (n + 1) Int64.ofNat

/-- `for i in 1..n+1 { sum = sum + i }`. -/
def simpleFor : Workload where
  name := "simple_for"
  description := "for i in 1..n+1: sum = sum + i"
  size := 1000
  result := "sum"
  body n := all [
    declare "sum" (int 0),
    forRange "i" (int 1) (bin .add (int (Int64.ofNat n)) (int 1)) [
      assign "sum" (bin .add (ident "sum") (ident "i"))]]
  want n := sumBelow (n + 1) Int64.ofNat

/-- Two nested while loops adding 1 each time. -/
def nestedWhile : Workload where
  name := "nested_while"
  description := "two nested while loops counting n*n"
  size := 50
  result := "sum"
  body n := all [
    declare "sum" (int 0),
    declare "i" (int 1),
    whileDo (bin .le (ident "i") (int (Int64.ofNat n))) [
      declare "j" (int 1),
      whileDo (bin .le (ident "j") (int (Int64.ofNat n))) [
        assign "sum" (bin .add (ident "sum") (int 1)),
        assign "j" (bin .add (ident "j") (int 1))],
      assign "i" (bin .add (ident "i") (int 1))]]
  want n := Int64.ofNat n * Int64.ofNat n

/-- Two nested while loops adding `i * j`. -/
def nestedProducts : Workload where
  name := "nested_products"
  description := "nested while loops summing i*j"
  size := 100
  result := "sum"
  body n := all [
    declare "sum" (int 0),
    declare "i" (int 1),
    whileDo (bin .le (ident "i") (int (Int64.ofNat n))) [
      declare "j" (int 1),
      whileDo (bin .le (ident "j") (int (Int64.ofNat n))) [
        compound "sum" .add (bin .mul (ident "i") (ident "j")),
        compound "j" .add (int 1)],
      compound "i" .add (int 1)]]
  want n := sumBelow n fun i => sumBelow n fun j => Int64.ofNat (i + 1) * Int64.ofNat (j + 1)

/-- A counted loop around a while loop with a parity branch. -/
def complexLoop : Workload where
  name := "complex_loop"
  description := "for loop around a while loop with a parity branch"
  size := 200
  result := "result"
  body n := all [
    declare "result" (int 0),
    forRange "i" (int 1) (bin .add (int (Int64.ofNat n)) (int 1)) [
      declare "temp" (int 0),
      declare "j" (int 1),
      whileDo (bin .le (ident "j") (ident "i")) [
        ifThen (bin .eq (bin .mod (ident "j") (int 2)) (int 0))
          [compound "temp" .add (bin .mul (ident "j") (ident "j"))]
          [compound "temp" .add (ident "j")],
        compound "j" .add (int 1)],
      compound "result" .add (ident "temp")]]
  want n := sumBelow n fun i => parityTerm (i + 1)

/-- The product `1 * 2 * … * n`. -/
def factorial : Workload where
  name := "factorial"
  description := "iterative factorial, a multiplicative reduction"
  size := 12
  result := "result"
  body n := all [
    declare "result" (int 1),
    forRange "i" (int 1) (bin .add (int (Int64.ofNat n)) (int 1)) [
      compound "result" .mul (ident "i")]]
  want n := (List.range n).foldl (fun acc i => acc * Int64.ofNat (i + 1)) 1

/-- `for i in 1..n+1 { sum += i * i }`. -/
def sumOfSquares : Workload where
  name := "sum_of_squares"
  description := "for i in 1..n+1: sum += i*i"
  size := 1000
  result := "sum"
  body n := all [
    declare "sum" (int 0),
    forRange "i" (int 1) (bin .add (int (Int64.ofNat n)) (int 1)) [
      compound "sum" .add (bin .mul (ident "i") (ident "i"))]]
  want n := sumBelow n fun i => Int64.ofNat (i + 1) * Int64.ofNat (i + 1)

/-- The primes up to `n`, found by trial division that leaves the inner
loop by `break`. -/
def countPrimes : Workload where
  name := "count_primes"
  description := "trial division with an inner break"
  size := 1000
  result := "count"
  body n := all [
    declare "count" (int 0),
    forRange "i" (int 2) (bin .add (int (Int64.ofNat n)) (int 1)) [
      declare "prime" (bool true),
      declare "d" (int 2),
      whileDo (bin .le (bin .mul (ident "d") (ident "d")) (ident "i")) [
        ifThen (bin .eq (bin .mod (ident "i") (ident "d")) (int 0))
          [assign "prime" (bool false), brk]
          [],
        incr "d"],
      ifThen (ident "prime") [incr "count"] []]]
  want n := sumBelow (n + 1) fun i => if isPrime i then 1 else 0

/-- `for x in [0, …, n - 1] { sum += x }`. -/
def arraySum : Workload where
  name := "array_sum"
  description := "for x in array: sum += x"
  size := 1000
  result := "sum"
  body n := all [
    declare "arr" (ints n),
    declare "sum" (int 0),
    forEach "x" (ident "arr") [
      compound "sum" .add (ident "x")]]
  want n := sumBelow n Int64.ofNat

/-- A multiply by `k + 5`, which does not change in the loop, and by the
constant 10, which becomes shifts and adds. -/
def invariantScale : Workload where
  name := "invariant_scale"
  description := "loop-invariant factor and constant multiply"
  size := 1000
  result := "sum"
  body n := all [
    declare "k" (int 3),
    declare "sum" (int 0),
    forRange "i" (int 0) (int (Int64.ofNat n)) [
      compound "sum" .add (bin .mul (ident "i") (bin .add (ident "k") (int 5))),
      compound "sum" .add (bin .mul (ident "i") (int 10))]]
  want n := sumBelow n fun i => Int64.ofNat i * 8 + Int64.ofNat i * 10

/-- A search that leaves its loop by `break` at the first multiple of 97
above `n / 2`. -/
def firstMultiple : Workload where
  name := "first_multiple"
  description := "search loop leaving through break"
  size := 1000
  result := "found"
  body n := all [
    declare "found" (neg (int 1)),
    forRange "i" (int 1) (int (Int64.ofNat n)) [
      ifThen (bin .and
          (bin .eq (bin .mod (ident "i") (int 97)) (int 0))
          (bin .gt (ident "i") (int (Int64.ofNat (n / 2)))))
        [assign "found" (ident "i"), brk]
        []]]
  want := firstMultipleAbove

/-- The distances of `0 … n - 1` from `n / 2`, through the `abs` builtin. -/
def absDistanceSum : Workload where
  name := "abs_distance_sum"
  description := "calls a builtin, so it always stays interpreted"
  size := 1000
  result := "sum"
  body n := all [
    declare "sum" (int 0),
    forRange "i" (int 0) (int (Int64.ofNat n)) [
      assign "sum" (bin .add (ident "sum")
        (call "abs" [bin .sub (ident "i") (int (Int64.ofNat (n / 2)))]))]]
  want n := sumBelow n fun i =>
    let d := Int64.ofNat i - Int64.ofNat (n / 2)
    if d < 0 then -d else d

/-! ## The catalog -/

/-- Every workload, by name. -/
def catalog : List Workload :=
  [absDistanceSum, arraySum, complexLoop, countPrimes, factorial, firstMultiple,
   invariantScale, nestedProducts, nestedWhile, simpleFor, simpleWhile, sumOfSquares, sumRange]

/-- The names of the workloads, in order. -/
def names : List String := catalog.map (·.name)

/-- The workload of a name. -/
def find? (name : String) : Option Workload := catalog.find? (·.name == name)

/-- Build a workload at problem size `n` (its default when `n` is 0) in
column `col`, keying its loops from `key` on; also the first key left. -/
def program (w : Workload) (col n key : Nat) : Program × Nat :=
  let n := if n = 0 then w.size else n
  let (stmts, key) := (w.body n).program col key
  ({ name := w.name, description := w.description, stmts := stmts, result := w.result,
     want := .int (w.want n) }, key)

end Workload

end HotLoop
