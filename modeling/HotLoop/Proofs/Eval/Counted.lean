import Mathlib.Data.Set.Card
import HotLoop.Eval.Exec
/-!
# HotLoop.Proofs.Eval.Counted

A counted loop visits exactly the terms of its progression that lie in its
half-open range, in order and without overflow.

* `Header.lt_trips_iff`: the trip count is taken on words, as a difference
  of signed words read back unsigned over the step's magnitude, rounded up.
  It is exact: the difference may overflow a signed word but never an
  unsigned one, the magnitude of the most negative step is read back right,
  and rounding up never wraps.
* `Header.inRange_iff_lt_trips`: the terms `start + k * step`, taken on
  integers, that lie in `[start, stop)` for a positive step or in
  `(stop, start]` for a negative one are those with `k < trips`; so `trips`
  counts them, whatever the bounds and however large the step.
* `Header.values` are the values the loops bind, stepped on 64-bit integers
  as the loops step them; `Header.toInt_values` says each is the exact
  integer term, so no step before the last one wraps.
* `iterRange_eq_iterEach`, `Entry.range_eq_each` and
  `Code.innerRange_eq_innerEach`: the interpreter, the compiled loop and a
  compiled nested loop run a counted loop as the collection loop over its
  values.
-/

namespace HotLoop

/-- The values `cur`, `cur + step`, … of a counted loop with `t` iterations
left, stepped as 64-bit integers. -/
def stepValues (step : Int64) : Int64 → Nat → List Int64
  | _, 0 => []
  | cur, t + 1 => cur :: stepValues step (cur + step) t

/-- An integer that a 64-bit word holds. -/
def InWord (x : Int) : Prop := -2 ^ 63 ≤ x ∧ x < 2 ^ 63

namespace Header

/-- The values the variable of a counted loop with header `h` takes. -/
def values (h : Header) : List Int64 := stepValues h.step h.start h.trips

/-- Term `k` of the loop's progression lies in the loop's half-open range:
`[start, stop)` for a positive step, `(stop, start]` otherwise. -/
def InRange (h : Header) (k : Nat) : Prop :=
  if 0 < h.step.toInt then
    h.start.toInt ≤ h.start.toInt + k * h.step.toInt ∧ h.start.toInt + k * h.step.toInt < h.stop.toInt
  else
    h.stop.toInt < h.start.toInt + k * h.step.toInt ∧ h.start.toInt + k * h.step.toInt ≤ h.start.toInt

end Header

/-! ## The trip count -/

/-- A signed word read back unsigned is its value modulo the word. -/
theorem Int64.toNat_toUInt64_eq_emod (z : Int64) : (z.toUInt64.toNat : Int) = z.toInt % 2 ^ 64 := by
  have hz : z.toInt = (z.toUInt64.toNat : Int).bmod (2 ^ 64) := BitVec.toInt_eq_toNat_bmod z.toBitVec
  have hlt := z.toUInt64.toNat_lt
  have hmod : (z.toUInt64.toNat : Int).bmod (2 ^ 64) % 2 ^ 64 = (z.toUInt64.toNat : Int) % 2 ^ 64 := by
    exact_mod_cast Int.bmod_emod
  rw [hz, hmod, Int.emod_eq_of_lt (by omega) (by omega)]

/-- A word that is not negative reads back unsigned as its value. -/
theorem Int64.toNat_toUInt64_of_nonneg {x : Int64} (h : 0 ≤ x.toInt) : x.toUInt64.toNat = x.toInt.toNat := by
  have h1 := Int64.toNat_toUInt64_eq_emod x
  have hx := x.toInt_lt
  rw [Int.emod_eq_of_lt h (by omega)] at h1
  omega

/-- A difference of signed words, read back unsigned, is the distance
between them when that is positive: it may overflow a signed word, never an
unsigned one. -/
theorem Int64.toNat_toUInt64_sub {x y : Int64} (h : y.toInt < x.toInt) :
    (x - y).toUInt64.toNat = (x.toInt - y.toInt).toNat := by
  have hx := x.le_toInt
  have hx' := x.toInt_lt
  have hy := y.le_toInt
  have hy' := y.toInt_lt
  have h1 := Int64.toNat_toUInt64_eq_emod (x - y)
  have hmod : (x.toInt - y.toInt).bmod (2 ^ 64) % 2 ^ 64 = (x.toInt - y.toInt) % 2 ^ 64 := by
    exact_mod_cast Int.bmod_emod
  rw [Int64.toInt_sub, hmod, Int.emod_eq_of_lt (by omega) (by omega)] at h1
  omega

/-- A negated negative word, read back unsigned, is its magnitude; the most
negative word negates to itself, whose unsigned reading is its magnitude. -/
theorem Int64.toNat_toUInt64_neg {s : Int64} (h : s.toInt < 0) : (-s).toUInt64.toNat = (-s.toInt).toNat := by
  have hs := s.le_toInt
  have h1 := Int64.toNat_toUInt64_eq_emod (-s)
  have hmod : (-s.toInt).bmod (2 ^ 64) % 2 ^ 64 = (-s.toInt) % 2 ^ 64 := by
    exact_mod_cast Int.bmod_emod
  rw [Int64.toInt_neg, hmod, Int.emod_eq_of_lt (by omega) (by omega)] at h1
  omega

/-- Rounding up on words counts the multiples of `b` below `a`. When a
remainder is left, `b` is at least 2, so the quotient is at most half a word
and the increment does not wrap. -/
theorem lt_ceilDiv_iff {a b : UInt64} (hb : b ≠ 0) (k : Nat) :
    k < (ceilDiv a b).toNat ↔ k * b.toNat < a.toNat := by
  have hb' : 0 < b.toNat := by
    rw [Nat.pos_iff_ne_zero, Ne, ← UInt64.toNat_zero, UInt64.toNat_inj]
    exact hb
  have ha := a.toNat_lt
  unfold ceilDiv
  split
  · rename_i hr
    have hr' : a.toNat % b.toNat ≠ 0 := by
      rw [← UInt64.toNat_mod, Ne, ← UInt64.toNat_zero, UInt64.toNat_inj]
      exact hr
    -- with a remainder, `b ≥ 2`, so the quotient leaves room for one more
    have hb2 : 2 ≤ b.toNat := by
      by_contra hlt
      rw [show b.toNat = 1 by omega, Nat.mod_one] at hr'
      exact hr' rfl
    have hq : a.toNat / b.toNat + 1 < 2 ^ 64 := by
      have : a.toNat / b.toNat ≤ a.toNat / 2 := Nat.div_le_div_left hb2 Nat.zero_lt_two
      omega
    rw [UInt64.toNat_add, UInt64.toNat_div, UInt64.toNat_one, Nat.mod_eq_of_lt hq, Nat.lt_succ_iff,
      Nat.le_div_iff_mul_le hb']
    constructor
    · intro hk
      rcases Nat.lt_or_eq_of_le hk with hk | hk
      · exact hk
      · exact absurd (by rw [← hk, Nat.mul_mod_left]) hr'
    · exact Nat.le_of_lt
  · rename_i hr
    have hr' : a.toNat % b.toNat = 0 := by
      rw [← UInt64.toNat_mod, ← UInt64.toNat_zero, UInt64.toNat_inj]
      exact not_not.1 hr
    rw [UInt64.toNat_div, Nat.lt_div_iff_mul_lt' (Nat.dvd_of_mod_eq_zero hr'), Nat.mul_comm]

/-- Multiples of a positive step below a distance, counted on the
magnitudes or on the integers. -/
theorem mul_toNat_lt_iff {n s : Int} (hs : 0 < s) (k : Nat) : k * s.toNat < n.toNat ↔ k * s < n := by
  rw [← Int.ofNat_lt]
  have hks : ((k * s.toNat : Nat) : Int) = k * s := by
    rw [Nat.cast_mul, Int.toNat_of_nonneg hs.le]
  rw [hks]
  omega

namespace Header

variable (h : Header)

/-- The trip count taken on words is the exact one: term `k` comes before
the last exactly when `k` steps stay short of the distance from `start` to
`stop`, both read as integers, in the step's direction. -/
theorem lt_trips_iff (k : Nat) : k < h.trips ↔
    (0 < h.step.toInt ∧ h.start.toInt < h.stop.toInt ∧ k * h.step.toInt < h.stop.toInt - h.start.toInt) ∨
      (h.step.toInt < 0 ∧ h.stop.toInt < h.start.toInt ∧
        k * -h.step.toInt < h.start.toInt - h.stop.toInt) := by
  unfold trips tripWord
  simp only [gt_iff_lt, Int64.lt_iff_toInt_lt, Int64.toInt_zero]
  by_cases hup : 0 < h.step.toInt ∧ h.start.toInt < h.stop.toInt
  · -- upward: the distance and the step are both positive words
    have hstep := Int64.toNat_toUInt64_of_nonneg hup.1.le
    rw [if_pos hup, lt_ceilDiv_iff (by rw [Ne, ← UInt64.toNat_inj, hstep, UInt64.toNat_zero]; omega),
      Int64.toNat_toUInt64_sub hup.2, hstep, mul_toNat_lt_iff hup.1]
    omega
  · rw [if_neg hup]
    by_cases hdown : h.step.toInt < 0 ∧ h.stop.toInt < h.start.toInt
    · -- downward: the magnitude of the step may be the most negative word's
      rw [if_pos hdown, lt_ceilDiv_iff (by rw [Ne, ← UInt64.toNat_inj, Int64.toNat_toUInt64_neg hdown.1, UInt64.toNat_zero]; omega),
        Int64.toNat_toUInt64_sub hdown.2, Int64.toNat_toUInt64_neg hdown.1, mul_toNat_lt_iff (by omega)]
      omega
    · rw [if_neg hdown]
      simp only [UInt64.toNat_zero, Nat.not_lt_zero, false_iff]
      omega

/-- The terms in range are exactly the first `trips` ones. -/
theorem inRange_iff_lt_trips (hs : h.step ≠ 0) (k : Nat) : h.InRange k ↔ k < h.trips := by
  have hs' : h.step.toInt ≠ 0 := by
    rwa [Ne, ← Int64.toInt_inj] at hs
  have hk : (k : Int) * -h.step.toInt = -(k * h.step.toInt) := Int.mul_neg _ _
  rw [h.lt_trips_iff k, hk]
  unfold InRange
  rcases Int.lt_or_gt_of_ne hs' with hneg | hpos
  · -- downward: the terms only fall, so the range's only edge is `stop`
    have hkn : (k : Int) * h.step.toInt ≤ 0 := Int.mul_nonpos_of_nonneg_of_nonpos (by omega) hneg.le
    rw [if_neg (show ¬ 0 < h.step.toInt by omega)]
    omega
  · -- upward: the terms only rise, so the range's only edge is `stop`
    have hkp : 0 ≤ (k : Int) * h.step.toInt := Int.mul_nonneg (by omega) hpos.le
    rw [if_pos hpos]
    omega

/-- `trips` is the number of terms of the progression in the loop's range. -/
theorem ncard_inRange (hs : h.step ≠ 0) : {k : Nat | h.InRange k}.ncard = h.trips := by
  have hset : {k : Nat | h.InRange k} = ↑(Finset.range h.trips) := by
    ext k
    simp [h.inRange_iff_lt_trips hs]
  rw [hset, Set.ncard_coe_finset, Finset.card_range]

/-- A term in range lies between the loop's bounds, so a word holds it. -/
theorem inWord_of_inRange {k : Nat} (hk : h.InRange k) :
    InWord (h.start.toInt + k * h.step.toInt) := by
  have := h.start.le_toInt
  have := h.start.toInt_lt
  have := h.stop.le_toInt
  have := h.stop.toInt_lt
  unfold InRange at hk
  split at hk <;> (unfold InWord; omega)

end Header

/-! ## Stepping without overflow -/

/-- A 64-bit sum is the integer sum while a word holds it. -/
theorem Int64.toInt_add_of_inWord {a b : Int64} (h : InWord (a.toInt + b.toInt)) :
    (a + b).toInt = a.toInt + b.toInt := by
  rw [Int64.toInt_add]
  exact Int.bmod_eq_of_le (by unfold InWord at h; omega) (by unfold InWord at h; omega)

/-- Stepping on words gives the integer terms as long as each term fits a
word. The term after the last is never formed, so it may overflow. -/
theorem toInt_stepValues (step : Int64) : ∀ (t : Nat) (cur : Int64),
    (∀ k < t, InWord (cur.toInt + k * step.toInt)) →
    (stepValues step cur t).map Int64.toInt =
      (List.range t).map fun (k : Nat) => cur.toInt + k * step.toInt
  | 0, _, _ => rfl
  | 1, cur, _ => by simp [stepValues]
  | t + 2, cur, hin => by
    have hnext : (cur + step).toInt = cur.toInt + step.toInt :=
      Int64.toInt_add_of_inWord (by simpa using hin 1 (by omega))
    have hrest := toInt_stepValues step (t + 1) (cur + step) fun k hk => by
      have := hin (k + 1) (by omega)
      rw [hnext]
      push_cast at this
      rwa [Int.add_mul, Int.one_mul, ← Int.add_assoc, Int.add_right_comm cur.toInt] at this
    rw [stepValues, List.map_cons, hrest, List.range_succ_eq_map (n := t + 1), List.map_cons,
      List.map_map, hnext]
    congr 1
    · simp
    · apply List.map_congr_left
      intro k _
      simp only [Function.comp_apply, Nat.succ_eq_add_one]
      push_cast
      rw [Int.add_mul, Int.one_mul]
      ac_rfl

/-- The values a counted loop binds are the integer terms
`start + k * step` for `k < trips`, each held by a word. -/
theorem Header.toInt_values (h : Header) (hs : h.step ≠ 0) :
    h.values.map Int64.toInt = (List.range h.trips).map fun (k : Nat) => h.start.toInt + k * h.step.toInt :=
  toInt_stepValues h.step h.trips h.start fun k hk =>
    h.inWord_of_inRange ((h.inRange_iff_lt_trips hs k).2 hk)

/-- From the largest word down by the most negative step: two values, and
the wrapped third is never formed. -/
example : (⟨Int64.maxValue, Int64.minValue, Int64.minValue, []⟩ : Header).values =
    [Int64.maxValue, -1] := by decide

/-! ## Counted iterations are collection iterations over the values -/

/-- The interpreter runs a counted loop as the collection loop over its
values. -/
theorem iterRange_eq_iterEach (l : Loop) (v : String) (step : Int64) :
    ∀ (fuel : Nat) (cur : Int64) (t n : Nat),
      iterRange fuel l v step cur t n = iterEach fuel l v ((stepValues step cur t).map .int) n
  | 0, _, _, _ => by simp only [iterRange, iterEach]
  | _ + 1, _, 0, _ => by simp only [iterRange, iterEach, stepValues, List.map]
  | f + 1, cur, t + 1, n => by
    simp only [iterRange, iterEach, stepValues, List.map, iterRange_eq_iterEach l v step f]

/-- Storing an integer value in a slot is storing the integer. -/
theorem Act.put_int (slot : Nat) (n : Int64) : Act.put slot (.int n) = Act.putInt slot n := rfl

/-- The compiled loop runs its counted iterations as collection iterations
over the values. -/
theorem Entry.range_eq_each (e : Entry) (s : Subject) (counter : Nat) (step : Int64) :
    ∀ (fuel : Nat) (cur : Int64) (t n : Nat),
      e.range s counter step fuel cur t n = e.each s counter fuel ((stepValues step cur t).map .int) n
  | 0, _, _, _ => by simp only [Entry.range, Entry.each]
  | _ + 1, _, 0, _ => by simp only [Entry.range, Entry.each, stepValues, List.map]
  | f + 1, cur, t + 1, n => by
    simp only [Entry.range, Entry.each, stepValues, List.map, Act.put_int,
      Entry.range_eq_each e s counter step f]

/-- A compiled nested loop runs its counted iterations as collection
iterations over the values. -/
theorem Code.innerRange_eq_innerEach (s : Subject) (width node : Nat) (body : List Code)
    (counter : Nat) (step : Int64) :
    ∀ (fuel : Nat) (cur : Int64) (t : Nat),
      Code.innerRange s width fuel node body counter step cur t =
        Code.innerEach s width fuel node body counter ((stepValues step cur t).map .int)
  | 0, _, _ => by simp only [Code.innerRange, Code.innerEach]
  | _ + 1, _, 0 => by simp only [Code.innerRange, Code.innerEach, stepValues, List.map]
  | f + 1, cur, t + 1 => by
    simp only [Code.innerRange, Code.innerEach, stepValues, List.map, Act.put_int,
      Code.innerRange_eq_innerEach s width node body counter step f]

end HotLoop
