import HotLoop.Float.Shortest
/-!
# HotLoop.Float.Text

Writing a double as text: the shortest digits that read back
(`HotLoop.Float.Shortest`), laid out by a `Style` that fixes where positional
notation ends, how the exponent is written and what NaN and the infinities
are called.

`Style.value` is the layout of values in this library: positional for
decimal exponents from -4 up to 5, `e` with a sign and at least two exponent
digits otherwise (`1e+06`, `1e-07`), `-0` for negative zero, `NaN`, `+Inf`
and `-Inf`.

A double can also be written with a fixed number of places after the point
(`fixed`): the exact value of the double, rounded to that many places with a
tie going to the even last digit. The sign of a negative value is kept even
when every printed digit is zero (`-0.00`); NaN and the infinities are `NaN`,
`+Inf` and `-Inf`. The value `m·2^e` is scaled by `10^places` and divided
exactly, so the rounding sees the true binary value and not a decimal
approximation of it.
-/

namespace HotLoop.Float

/-- The layout decisions of a float text. -/
structure Style where
  /-- Positional notation is used for leading-digit exponents `x` with
  `lowest ≤ x < limit`. -/
  lowest : Int
  limit : Int
  /-- The exponent mark. -/
  mark : String
  /-- Minimum number of exponent digits, padded with zeros. -/
  expDigits : Nat
  nanText : String
  posInfText : String
  negInfText : String

/-- Values are written positionally for exponents -4 to 5, with `e±dd`
elsewhere; infinities carry their sign. -/
def Style.value : Style :=
  ⟨-4, 6, "e", 2, "NaN", "+Inf", "-Inf"⟩

/-- Digits as characters. -/
def digitText (ds : List Nat) : String :=
  String.ofList (ds.map fun d => Char.ofNat ('0'.toNat + d))

/-- `n` zeros. -/
def zeros (n : Nat) : String := String.ofList (List.replicate n '0')

/-- Positional layout of `0.d₁…dₙ·10^point`. -/
def positional (d : Digits) : String :=
  let n := d.digits.length
  if d.point ≤ 0 then
    "0." ++ zeros (-d.point).toNat ++ digitText d.digits
  else if d.point.toNat ≥ n then
    digitText d.digits ++ zeros (d.point.toNat - n)
  else
    digitText (d.digits.take d.point.toNat) ++ "." ++ digitText (d.digits.drop d.point.toNat)

/-- Exponent layout of `0.d₁…dₙ·10^point`: `d₁.d₂…dₙ` then the exponent of
`d₁`. -/
def scientific (s : Style) (d : Digits) : String :=
  let x := d.point - 1
  let mant := match d.digits with
    | [] => "0"
    | [a] => digitText [a]
    | a :: rest => digitText [a] ++ "." ++ digitText rest
  let mag := toString x.natAbs
  let padded := zeros (s.expDigits - mag.length) ++ mag
  mant ++ s.mark ++ (if x < 0 then "-" else "+") ++ padded

/-- The text of a pattern in a style. -/
def Style.render (s : Style) (w : UInt64) : String :=
  match Binary.ofBits w with
  | .nan => s.nanText
  | .inf neg => if neg then s.negInfText else s.posInfText
  | .finite b =>
    let sign := if b.neg then "-" else ""
    if b.m = 0 then sign ++ "0"
    else
      let d := b.shortest
      let x := d.point - 1
      if s.lowest ≤ x ∧ x < s.limit then sign ++ positional d
      else sign ++ scientific s d

/-! ## Fixed places -/

/-- The digits of `q / 10^places` with a point before the last `places`
digits and at least one digit before it. -/
def pointed (q places : Nat) : String :=
  let ds := (toString q).toList
  let ds := List.replicate (places + 1 - ds.length) '0' ++ ds
  if places = 0 then String.ofList ds
  else String.ofList (ds.take (ds.length - places)) ++ "." ++ String.ofList (ds.drop (ds.length - places))

/-- The pattern `w` with `places` digits after the point. -/
def fixed (w : UInt64) (places : Nat) : String :=
  match Binary.ofBits w with
  | .nan => "NaN"
  | .inf neg => if neg then "-Inf" else "+Inf"
  | .finite b =>
    let (q, r, den) := scaledDiv (b.m * Nat.pow 10 places) 1 (-b.e)
    (if b.neg then "-" else "") ++ pointed (roundHalfEven q r den) places

end HotLoop.Float

/-- The text of a double as values are written: shortest digits that read back. -/
def Float.text (x : Float) : String :=
  HotLoop.Float.Style.value.render x.toBits
