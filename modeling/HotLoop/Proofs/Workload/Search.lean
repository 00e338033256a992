import HotLoop.Proofs.Workload.Nested
/-!
# HotLoop.Proofs.Workload.Search

The catalog programs whose loops end early through `break`: each leaves in
its result global the answer the catalog gives for it, for every problem
size below `2 ^ 31`.

* `trialDivision_runs`: the inner loop of `count_primes` decides primality.
  Its invariant says that the trial divisors below `d` divide nothing, so
  that the answer from `d` on is the answer of the whole search
  (`noFactorFrom`); a divisor found leaves the loop through `break` with
  `prime` false, a divisor past the square root with `prime` true.
* `countPrimes_runs`: the primes up to `n`, counted around that loop.
* `firstMultiple_runs`: the search for the first multiple of 97 above
  `n / 2`, which leaves its counted loop through `break` exactly at the
  first value the catalog's `find?` finds.
-/

namespace HotLoop

open Run

namespace Workload

/-- A boolean is as truthy as it is. -/
@[simp] theorem truthy_bool (x : Bool) : (Value.bool x).truthy = x := rfl

/-- A `break` stops the block it is in. -/
theorem brk_ne_none : Signal.brk ≠ Signal.none := fun h => Signal.noConfusion h

/-! ## Trial division -/

/-- The trial-division loop of `count_primes`, in column `col` with key `key`:
while `d * d <= i`, a divisor `d` clears `prime` and leaves the loop, any
other `d` is followed by `d + 1`. -/
def trialDivision (col key : Nat) : Stmt :=
  .loop key ⟨26, col⟩
    (.cond (.binary ⟨15, col⟩ .le
      (.binary ⟨13, col⟩ .mul (.ident ⟨11, col⟩ "d") (.ident ⟨12, col⟩ "d")) (.ident ⟨14, col⟩ "i")))
    [.cond ⟨24, col⟩ (.binary ⟨20, col⟩ .eq
        (.binary ⟨18, col⟩ .mod (.ident ⟨16, col⟩ "i") (.ident ⟨17, col⟩ "d")) (.int ⟨19, col⟩ 0))
      [.assign ⟨22, col⟩ "prime" (.bool ⟨21, col⟩ false), .brk ⟨23, col⟩] [],
     .step ⟨25, col⟩ "d" false]

/-- Trial division from `d` with no divisor found: the answer is `true` once
`d * d` passes `i`. -/
theorem noFactorFrom_of_gt {i fuel d : Nat} (h : i < d * d) : noFactorFrom i fuel d = true := by
  cases fuel with
  | zero => rfl
  | succ fuel => simp [noFactorFrom, h]

/-- A divisor `d` with `d * d ≤ i` settles the search: `i` has a factor. -/
theorem noFactorFrom_of_dvd {i fuel d : Nat} (hle : d * d ≤ i) (hd : i % d = 0) :
    noFactorFrom i (fuel + 1) d = false := by
  simp [noFactorFrom, Nat.not_lt.2 hle, hd]

/-- A non-divisor `d` with `d * d ≤ i` passes the search on to `d + 1`. -/
theorem noFactorFrom_of_not_dvd {i fuel d : Nat} (hle : d * d ≤ i) (hd : i % d ≠ 0) :
    noFactorFrom i (fuel + 1) d = noFactorFrom i fuel (d + 1) := by
  simp [noFactorFrom, Nat.not_lt.2 hle, hd]

/-- A nonzero count below `2 ^ 63` is a nonzero word. -/
theorem ofNat_ne_zero {d : Nat} (h0 : d ≠ 0) (hd : d < 2 ^ 63) : Int64.ofNat d ≠ 0 := by
  rw [ne_eq, ← Int64.toInt_inj, Int64.toInt_ofNat_of_lt hd, Int64.toInt_zero]
  exact_mod_cast h0

/-- Trial division leaves `prime` set exactly for the primes: run from
`prime = true` and `d = 2` on an `i ≥ 2` below `2 ^ 31`, the loop ends with
`prime` equal to `isPrime i` and `d` at some value. -/
theorem trialDivision_runs (col key i : Nat) (hi : 2 ≤ i) (hi' : i < 2 ^ 31) (outer : List Bindings) :
    ∃ dv, Runs (i + 10) (execStmt · (trialDivision col key))
      ([("i", .int (Int64.ofNat i)), ("prime", .bool true), ("d", .int 2)] :: outer) .none
      ([("i", .int (Int64.ofNat i)), ("prime", .bool (isPrime i)), ("d", dv)] :: outer) := by
  -- after `m` iterations: `d = m + 2`, `prime` still set, and the search from
  -- `d` on answers for the whole search
  let Sc (m : Nat) : List Bindings :=
    [("i", .int (Int64.ofNat i)), ("prime", .bool true), ("d", .int (Int64.ofNat (m + 2)))] :: outer
  suffices h : ∃ bs, Runs (5 + i + 5) (execStmt · (trialDivision col key)) (Sc 0) .none bs ∧
      ∃ dv, bs = [("i", .int (Int64.ofNat i)), ("prime", .bool (isPrime i)), ("d", dv)] :: outer by
    obtain ⟨bs, hloop, dv, rfl⟩ := h
    exact ⟨dv, hloop.conv (by omega) (by simp [Sc]) rfl⟩
  refine runs_while i
    (fun m loc bs => loc = [] ∧ bs = Sc m ∧ m ≤ i ∧ noFactorFrom i i 2 = noFactorFrom i (i - m) (m + 2))
    _ ⟨rfl, rfl, Nat.zero_le i, by simp⟩ ?_
  rintro m loc bs ⟨rfl, rfl, hm, hsearch⟩
  have hsq : (m + 2) * (m + 2) < 2 ^ 63 := by
    have := Nat.mul_le_mul (show m + 2 ≤ 2 ^ 31 + 2 by omega) (show m + 2 ≤ 2 ^ 31 + 2 by omega)
    omega
  -- the condition `d * d <= i`, on words that do not overflow
  have hcmp : (Value.bool (decide (Int64.ofNat (m + 2) * Int64.ofNat (m + 2) ≤ Int64.ofNat i))).truthy =
      decide ((m + 2) * (m + 2) ≤ i) := by
    simp only [Value.truthy, ← Int64.ofNat_mul,
      Int64.ofNat_le_iff_le hsq (show i < 2 ^ 63 by omega)]
  refine ⟨.bool (decide (Int64.ofNat (m + 2) * Int64.ofNat (m + 2) ≤ Int64.ofNat i)),
    Evals.binary (.int (Int64.ofNat (m + 2) * Int64.ofNat (m + 2))) (.int (Int64.ofNat i)) (by decide)
      (Evals.binary (.int (Int64.ofNat (m + 2))) (.int (Int64.ofNat (m + 2))) (by decide)
        (Evals.ident (by simp [Sc, Bindings.get?])) (Evals.ident (by simp [Sc, Bindings.get?])) rfl)
      (Evals.ident (by simp [Sc, Bindings.get?])) rfl, fun hgt => ?_, fun hle => ?_⟩
  · -- `d` is past the square root: no divisor, so `i` is prime
    rw [hcmp, decide_eq_false_iff_not] at hgt
    have hprime : isPrime i = true := by
      rw [isPrime, hsearch]
      simp [hi, noFactorFrom_of_gt (Nat.lt_of_not_le hgt)]
    exact ⟨.int (Int64.ofNat (m + 2)), by simp [Sc, hprime]⟩
  · rw [hcmp, decide_eq_true_eq] at hle
    have hmi : m < i := by
      have := Nat.le_mul_self (m + 2)
      omega
    obtain ⟨r, hr⟩ : ∃ r, i - m = r + 1 := ⟨i - m - 1, by omega⟩
    refine ⟨hmi, ?_⟩
    -- the divisibility test `i % d == 0`
    let cv : Value := .bool (Value.looseEq (.int (Int64.ofNat i % Int64.ofNat (m + 2))) (.int 0))
    have hc : Evals (.binary ⟨20, col⟩ .eq
        (.binary ⟨18, col⟩ .mod (.ident ⟨16, col⟩ "i") (.ident ⟨17, col⟩ "d")) (.int ⟨19, col⟩ 0)) ([] :: Sc m) cv :=
      Evals.binary (.int (Int64.ofNat i % Int64.ofNat (m + 2))) (.int 0) (by decide)
        (Evals.binary (.int (Int64.ofNat i)) (.int (Int64.ofNat (m + 2))) (by decide)
          (Evals.ident (by simp [Sc, Bindings.get?])) (Evals.ident (by simp [Sc, Bindings.get?]))
          (by simp only [Value.binary, intBinary, if_neg (ofNat_ne_zero (show m + 2 ≠ 0 by omega) (by omega))]))
        (Evals.int _) rfl
    have hcv : cv.truthy = decide (i % (m + 2) = 0) := by
      simp only [cv, Value.truthy, looseEq_int]
      exact ofNat_mod_beq_zero (by omega) (by omega)
    by_cases hd : i % (m + 2) = 0
    · -- a divisor: `prime` is cleared and the loop left
      have hcomp : isPrime i = false := by
        rw [isPrime, hsearch, hr, noFactorFrom_of_dvd hle hd, Bool.and_false]
      refine ⟨.brk, [], [("i", .int (Int64.ofNat i)), ("prime", .bool false), ("d", .int (Int64.ofNat (m + 2)))] ::
        outer, (runs_stop (runs_cond cv hc (fun _ => runs_cons _ (runs_assign (Evals.bool false)
          (by simp [Sc, Bindings.get?])) (runs_stop runs_brk brk_ne_none)) (fun h => by simp [hcv, hd] at h))
          brk_ne_none).conv le_rfl rfl ?_, .inr ⟨rfl, .int (Int64.ofNat (m + 2)), by simp [hcomp]⟩⟩
      simp [Sc, Scopes.set, Bindings.has, Bindings.put]
    · -- no divisor: `d` goes on to `d + 1`
      refine ⟨.none, [], Sc (m + 1), runs_cons _ (runs_cond cv hc (fun h => by simp [hcv, hd] at h)
        (fun _ => runs_nil rfl)) (runs_cons _ (runs_incr (.int (Int64.ofNat (m + 2)))
          (by simp [Sc, Bindings.get?]) rfl) (runs_nil ?_)), .inl ⟨.inl rfl, rfl, rfl, by omega, ?_⟩⟩
      · simp [Sc, Scopes.set, Bindings.has, Bindings.put, Int64.add_assoc]
      · rw [hsearch, hr, noFactorFrom_of_not_dvd hle hd]
        congr 1
        omega

/-! ## Counting primes -/

/-- Neither `0` nor `1` is prime: the primes below `2` count nothing. -/
theorem primesBelow_two : sumBelow 2 (fun i => if isPrime i then (1 : Int64) else 0) = 0 := rfl

theorem countPrimes_program (n col key : Nat) : ((countPrimes.body n).program col key).1 =
    [.declare ⟨2, col⟩ "count" (.int ⟨1, col⟩ 0),
     .loop key ⟨30, col⟩ (.range "i" (.int ⟨3, col⟩ 2)
        (.binary ⟨6, col⟩ .add (.int ⟨4, col⟩ (Int64.ofNat n)) (.int ⟨5, col⟩ 1)) none)
       [.declare ⟨8, col⟩ "prime" (.bool ⟨7, col⟩ true), .declare ⟨10, col⟩ "d" (.int ⟨9, col⟩ 2),
        trialDivision col (key + 1),
        .cond ⟨29, col⟩ (.ident ⟨27, col⟩ "prime") [.step ⟨28, col⟩ "count" false] []]] := by
  simp only [Build.program, countPrimes, Build.all, List.mapM_cons, List.mapM_nil, Build.declare,
    Build.int, Build.bool, Build.bin, Build.ident, Build.forRange, Build.whileDo, Build.ifThen,
    Build.assign, Build.brk, Build.incr, Build.next, id_eq, StateT.run_bind]
  rfl

theorem countPrimes_runs (n : Nat) (hn : n < 2 ^ 31) (col key : Nat) :
    Runs (2 * n + 22) (execBlock · ((countPrimes.body n).program col key).1) [[]] .none
      [[("count", .int (countPrimes.want n))]] := by
  rw [countPrimes_program]
  -- after iteration `k`, which tests `i = k + 2`, the primes up to `k + 2` are counted
  let C (k : Nat) : Int64 := sumBelow (k + 2) fun i => if isPrime i then 1 else 0
  refine runs_cons _ (runs_declare (Evals.int 0)) (runs_cons _ ?_ (runs_nil rfl))
  refine (runs_counted_steps (B := n + 14) (n + 1 - 2)
    (fun loc => loc = [] ∨ ∃ a b c, loc = [("i", a), ("prime", b), ("d", c)])
    (fun k => [[("count", .int (C k))]]) (Evals.int 2)
    (Evals.binary (.int (Int64.ofNat n)) (.int 1) (by decide) (Evals.int _) (Evals.int _) rfl)
    (trips_to_succ (a := 2) (by omega) (by omega)) (.inl rfl) fun k hk loc hloc => ?_).conv
    (by omega) (by simp [C, primesBelow_two, Bindings.put]) ?_
  rotate_left
  · -- the last iteration tested `n`; with `n = 0` there was none
    rcases n with _ | n
    · rfl
    · show [[("count", Value.int (C (n + 1 + 1 - 2)))]] = _
      rw [show n + 1 + 1 - 2 = n by omega]
      rfl
  let vi : Value := .int (Int64.ofNat (k + 2))
  have hput : ((loc.put "i" (.int (2 + Int64.ofNat k))).put "prime" (.bool true)).put "d" (.int 2) =
      [("i", vi), ("prime", .bool true), ("d", .int 2)] := by
    rcases hloc with rfl | ⟨a, b, c, rfl⟩ <;> simp [vi, Bindings.put, Int64.add_comm]
  obtain ⟨dv, htrial⟩ := trialDivision_runs col (key + 1) (k + 2) (by omega) (by omega) [[("count", .int (C k))]]
  let loc' : Bindings := [("i", vi), ("prime", .bool (isPrime (k + 2))), ("d", dv)]
  refine ⟨loc', .inr ⟨_, _, _, rfl⟩, ?_⟩
  refine runs_cons _ (runs_declare (Evals.bool true)) (runs_cons _ (runs_declare (Evals.int 2))
    (runs_cons (loc' :: [[("count", .int (C k))]]) ((htrial.mono (by omega)).conv le_rfl ?_ rfl)
      (runs_cons _ (runs_cond (.bool (isPrime (k + 2))) (Evals.ident (by simp [loc', Bindings.get?]))
        (fun hp => runs_cons _ (runs_incr (.int (C k)) (by simp [loc', Bindings.get?]) rfl) (runs_nil ?_))
        (fun hp => runs_nil ?_)) (runs_nil rfl))))
  · simp [hput, vi]
  · -- a prime adds one
    simp only [Value.truthy] at hp
    simp [loc', C, Scopes.set, Bindings.has, Bindings.put, sumBelow_succ (k + 2), hp]
  · simp only [Value.truthy] at hp
    simp [loc', C, sumBelow_succ (k + 2), hp]

/-! ## The first multiple above half -/

section FirstMultiple

variable {n : Nat}

/-- With no hit among `1 … n - 1`, the search answers `-1`. -/
theorem firstMultipleAbove_of_none (h : ∀ j < n - 1, (j + 1) % 97 = 0 → j + 1 ≤ n / 2) :
    firstMultipleAbove n = -1 := by
  have hnone : (List.range' 1 (n - 1)).find? (fun i => i % 97 == 0 && decide (i > n / 2)) = none := by
    refine List.find?_range'_eq_none.2 fun i h1 hi => ?_
    obtain ⟨j, rfl⟩ : ∃ j, i = j + 1 := ⟨i - 1, by omega⟩
    have := h j (by omega)
    simp only [Bool.not_eq_true', Bool.and_eq_false_iff, beq_eq_false_iff_ne, decide_eq_false_iff_not]
    omega
  simp only [firstMultipleAbove, hnone]

/-- The first hit `j + 1` below `n` is the answer. -/
theorem firstMultipleAbove_of_first {j : Nat} (hjn : j + 1 < n) (h97 : (j + 1) % 97 = 0)
    (hhalf : n / 2 < j + 1) (hfirst : ∀ i < j, (i + 1) % 97 = 0 → i + 1 ≤ n / 2) :
    firstMultipleAbove n = Int64.ofNat (j + 1) := by
  have hsome : (List.range' 1 (n - 1)).find? (fun i => i % 97 == 0 && decide (i > n / 2)) = some (j + 1) := by
    refine List.find?_range'_eq_some.2 ⟨by simp [h97, hhalf], List.mem_range'_1.2 (by omega), fun i h1 hi => ?_⟩
    obtain ⟨i, rfl⟩ : ∃ i', i = i' + 1 := ⟨i - 1, by omega⟩
    have := hfirst i (by omega)
    simp only [Bool.not_eq_true', Bool.and_eq_false_iff, beq_eq_false_iff_ne, decide_eq_false_iff_not]
    omega
  simp only [firstMultipleAbove, hsome]

end FirstMultiple

theorem firstMultiple_program (n col key : Nat) : ((firstMultiple.body n).program col key).1 =
    [.declare ⟨3, col⟩ "found" (.unary ⟨2, col⟩ .neg (.int ⟨1, col⟩ 1)),
     .loop key ⟨19, col⟩ (.range "i" (.int ⟨4, col⟩ 1) (.int ⟨5, col⟩ (Int64.ofNat n)) none)
       [.cond ⟨18, col⟩ (.binary ⟨14, col⟩ .and
           (.binary ⟨10, col⟩ .eq
             (.binary ⟨8, col⟩ .mod (.ident ⟨6, col⟩ "i") (.int ⟨7, col⟩ 97)) (.int ⟨9, col⟩ 0))
           (.binary ⟨13, col⟩ .gt (.ident ⟨11, col⟩ "i") (.int ⟨12, col⟩ (Int64.ofNat (n / 2)))))
         [.assign ⟨16, col⟩ "found" (.ident ⟨15, col⟩ "i"), .brk ⟨17, col⟩] []]] := by
  simp only [Build.program, firstMultiple, Build.all, List.mapM_cons, List.mapM_nil, Build.declare,
    Build.int, Build.neg, Build.bin, Build.ident, Build.forRange, Build.ifThen, Build.assign, Build.brk,
    Build.next, id_eq, StateT.run_bind]
  rfl

theorem firstMultiple_runs (n : Nat) (hn : n < 2 ^ 31) (col key : Nat) :
    Runs (n + 12) (execBlock · ((firstMultiple.body n).program col key).1) [[]] .none
      [[("found", .int (firstMultiple.want n))]] := by
  rw [firstMultiple_program]
  -- before iteration `k`, which tests `i = k + 1`, no `i ≤ k` was a hit and `found` is still -1
  refine (runs_counted (B := 5) (n - 1) (Evals.int _)
    (Evals.int _) (trips_ofNat (a := 1) (by omega) (by omega))
    (fun k loc outer => (loc = [] ∨ ∃ v, loc = [("i", v)]) ∧ outer = [[("found", .int (-1))]] ∧
      ∀ j < k, (j + 1) % 97 = 0 → j + 1 ≤ n / 2)
    (fun outer => outer = [[("found", .int (firstMultipleAbove n))]])
    ⟨.inl rfl, rfl, fun j hj => absurd hj (Nat.not_lt_zero j)⟩ ?_
    (fun _ _ hI => by rw [hI.2.1, firstMultipleAbove_of_none hI.2.2])).elim fun bs h =>
      runs_cons _ (runs_declare (Evals.unary (.int 1) (Evals.int _) rfl))
        (runs_cons _ ((h.1.mono (by omega)).conv le_rfl (by simp [Bindings.put]) h.2) (runs_nil rfl))
  rintro k loc outer hk ⟨hloc, rfl, hall⟩
  let vi : Int64 := Int64.ofNat (k + 1)
  have hput : loc.put "i" (.int (Int64.ofNat 1 + Int64.ofNat k)) = [("i", .int vi)] := by
    rcases hloc with rfl | ⟨v, rfl⟩ <;> simp [vi, Bindings.put, Int64.add_comm]
  rw [hput]
  -- the test `i % 97 == 0 && i > n / 2`, short-circuiting on its left side
  let a : Value := .bool (Value.looseEq (.int (vi % Int64.ofNat 97)) (.int 0))
  have ha : Evals (.binary ⟨10, col⟩ .eq
      (.binary ⟨8, col⟩ .mod (.ident ⟨6, col⟩ "i") (.int ⟨7, col⟩ 97)) (.int ⟨9, col⟩ 0))
      [[("i", .int vi)], [("found", .int (-1))]] a :=
    Evals.binary (.int (vi % Int64.ofNat 97)) (.int 0) (by decide)
      (Evals.binary (.int vi) (.int (Int64.ofNat 97)) (by decide) (Evals.ident (by simp [Bindings.get?]))
        (Evals.int _) rfl) (Evals.int _) rfl
  have hat : a.truthy = decide ((k + 1) % 97 = 0) := by
    simp only [a, Value.truthy, looseEq_int]
    exact ofNat_mod_beq_zero (by omega) (by decide)
  let b : Value := .bool (decide (vi > Int64.ofNat (n / 2)))
  have hb : Evals (.binary ⟨13, col⟩ .gt (.ident ⟨11, col⟩ "i") (.int ⟨12, col⟩ (Int64.ofNat (n / 2))))
      [[("i", .int vi)], [("found", .int (-1))]] b :=
    Evals.binary (.int vi) (.int (Int64.ofNat (n / 2))) (by decide) (Evals.ident (by simp [Bindings.get?]))
      (Evals.int _) rfl
  have hbt : b.truthy = decide (n / 2 < k + 1) := by
    simp only [b, Value.truthy, vi, gt_iff_lt, decide_eq_decide]
    exact Int64.ofNat_lt_iff_lt (by omega) (by omega)
  by_cases h97 : (k + 1) % 97 = 0
  · by_cases hhalf : n / 2 < k + 1
    · -- the first hit: `found` takes `i` and the loop is left
      have hc := Evals.and_true (p := ⟨14, col⟩) a b ha (by simp [hat, h97]) hb
      refine ⟨.brk, [("i", .int vi)], [[("found", .int vi)]], (runs_stop (runs_cond _ hc
        (fun _ => runs_cons _ (runs_assign (Evals.ident (v := .int vi) (by simp [Bindings.get?]))
          (by simp [Bindings.get?]))
          (runs_stop runs_brk brk_ne_none)) (fun h => by simp [hbt, hhalf] at h)) brk_ne_none).conv le_rfl rfl ?_,
        .inr ⟨rfl, ?_⟩⟩
      · simp [Scopes.set, Bindings.has, Bindings.put]
      · rw [firstMultipleAbove_of_first (by omega) h97 hhalf hall]
    · -- a multiple of 97 not above half: the loop goes on
      have hc := Evals.and_true (p := ⟨14, col⟩) a b ha (by simp [hat, h97]) hb
      refine ⟨.none, [("i", .int vi)], _, runs_cons _ (runs_cond _ hc (fun h => by simp [hbt, hhalf] at h)
        (fun _ => runs_nil rfl)) (runs_nil rfl), .inl ⟨.inl rfl, .inr ⟨_, rfl⟩, rfl, fun j hj h => ?_⟩⟩
      rcases Nat.lt_succ_iff_lt_or_eq.1 hj with hj | rfl
      · exact hall j hj h
      · omega
  · -- not a multiple of 97: the test fails on its left side
    have hc := Evals.and_false (p := ⟨14, col⟩) (y := .binary ⟨13, col⟩ .gt (.ident ⟨11, col⟩ "i")
      (.int ⟨12, col⟩ (Int64.ofNat (n / 2)))) a ha (by simp [hat, h97])
    refine ⟨.none, [("i", .int vi)], _, runs_cons _ (runs_cond _ hc (fun h => by simp [Value.truthy] at h)
      (fun _ => runs_nil rfl)) (runs_nil rfl), .inl ⟨.inl rfl, .inr ⟨_, rfl⟩, rfl, fun j hj h => ?_⟩⟩
    rcases Nat.lt_succ_iff_lt_or_eq.1 hj with hj | rfl
    · exact hall j hj h
    · exact absurd h h97

end Workload

end HotLoop
