import HotLoop.Proofs.Eval.Scoped
import HotLoop.Workload.Catalog
/-!
# HotLoop.Proofs.Workload.Sums

The catalog programs made of one loop whose body only reads the loop's
variable: each leaves in its result global the answer the catalog gives
for it, for every problem size below `2 ^ 31`, wrapping where the answer
wraps.

* Counted loops: `sumRange_runs`, `simpleFor_runs`, `sumOfSquares_runs`,
  `factorial_runs`, `invariantScale_runs`, `absDistanceSum_runs`. After `k`
  iterations the globals hold the answer for the first `k` values of the
  counter.
* `arraySum_runs`: the collection loop over the array literal `[0, …, n-1]`.

Each program is first written out as the statements its builder produces;
its run then follows the rules of `HotLoop.Proofs.Eval.Scoped`.
-/

namespace HotLoop

open Run

namespace Workload

theorem sumBelow_succ (n : Nat) (f : Nat → Int64) : sumBelow (n + 1) f = sumBelow n f + f n := by
  simp only [sumBelow, List.range_succ, List.foldl_append, List.foldl_cons, List.foldl_nil]

/-- The number of trips of a counted loop between small naturals. -/
theorem trips_ofNat {a b : Nat} (ha : a < 2 ^ 63) (hb : b < 2 ^ 63) :
    ((Int64.ofNat b).toInt - (Int64.ofNat a).toInt).toNat = b - a := by
  rw [Int64.toInt_ofNat_of_lt ha, Int64.toInt_ofNat_of_lt hb]
  omega

/-! ## Counted sums -/

theorem sumRange_program (n col key : Nat) : ((sumRange.body n).program col key).1 =
    [.declare ⟨2, col⟩ "sum" (.int ⟨1, col⟩ 0),
     .loop key ⟨7, col⟩ (.range "i" (.int ⟨3, col⟩ 0) (.int ⟨4, col⟩ (Int64.ofNat n)) none)
       [.compound ⟨6, col⟩ "sum" .add (.ident ⟨5, col⟩ "i")]] := rfl

theorem sumRange_runs (n : Nat) (hn : n < 2 ^ 31) (col key : Nat) :
    Runs (n + 9) (execBlock · ((sumRange.body n).program col key).1) [[]] .none
      [[("sum", .int (sumRange.want n))]] := by
  rw [sumRange_program]
  refine runs_cons _ (runs_declare (Evals.int 0)) (runs_cons _ ?_ (runs_nil rfl))
  refine (runs_counted_reads (B := 2) n (fun k => [[("sum", .int (sumBelow k Int64.ofNat))]])
    (Evals.int 0) (Evals.int _) (trips_ofNat (a := 0) (by omega) (by omega)) fun k _ => ?_).mono (by omega)
  refine runs_cons _ (runs_compound (.int (sumBelow k Int64.ofNat)) (.int (0 + Int64.ofNat k))
    (by simp [Bindings.get?]) (Evals.ident (by simp [Bindings.get?])) rfl) (runs_nil ?_)
  simp [Scopes.set, Bindings.has, Bindings.put, sumBelow_succ]

theorem one_add_ofNat (k : Nat) : 1 + Int64.ofNat k = Int64.ofNat (k + 1) := by
  rw [Int64.ofNat_add, Int64.add_comm]
  rfl

/-- The trips of a counted loop from `a` up to `n + 1`. -/
theorem trips_to_succ {a n : Nat} (ha : a < 2 ^ 63) (hn : n + 1 < 2 ^ 63) :
    ((Int64.ofNat n + 1).toInt - (Int64.ofNat a).toInt).toNat = n + 1 - a := by
  rw [show Int64.ofNat n + 1 = Int64.ofNat (n + 1) from (one_add_ofNat n ▸ Int64.add_comm _ _)]
  exact trips_ofNat ha hn

theorem simpleFor_program (n col key : Nat) : ((simpleFor.body n).program col key).1 =
    [.declare ⟨2, col⟩ "sum" (.int ⟨1, col⟩ 0),
     .loop key ⟨11, col⟩ (.range "i" (.int ⟨3, col⟩ 1)
        (.binary ⟨6, col⟩ .add (.int ⟨4, col⟩ (Int64.ofNat n)) (.int ⟨5, col⟩ 1)) none)
       [.assign ⟨10, col⟩ "sum" (.binary ⟨9, col⟩ .add (.ident ⟨7, col⟩ "sum") (.ident ⟨8, col⟩ "i"))]] :=
  rfl

theorem simpleFor_runs (n : Nat) (hn : n < 2 ^ 31) (col key : Nat) :
    Runs (n + 9) (execBlock · ((simpleFor.body n).program col key).1) [[]] .none
      [[("sum", .int (simpleFor.want n))]] := by
  rw [simpleFor_program]
  refine runs_cons _ (runs_declare (Evals.int 0)) (runs_cons _ ?_ (runs_nil rfl))
  refine (runs_counted_reads (B := 2) n (fun k => [[("sum", .int (sumBelow (k + 1) Int64.ofNat))]])
    (Evals.int 1) (Evals.binary (.int (Int64.ofNat n)) (.int 1) (by decide) (Evals.int _) (Evals.int _) rfl)
    (trips_to_succ (a := 1) (by omega) (by omega)) fun k _ => ?_).mono (by omega)
  refine runs_cons _ (runs_assign (Evals.binary (.int (sumBelow (k + 1) Int64.ofNat)) (.int (1 + Int64.ofNat k))
    (by decide) (Evals.ident (by simp [Bindings.get?])) (Evals.ident (by simp [Bindings.get?])) rfl)
    (by simp [Bindings.get?])) (runs_nil ?_)
  simp [Scopes.set, Bindings.has, Bindings.put, sumBelow_succ (k + 1), one_add_ofNat]

theorem sumOfSquares_program (n col key : Nat) : ((sumOfSquares.body n).program col key).1 =
    [.declare ⟨2, col⟩ "sum" (.int ⟨1, col⟩ 0),
     .loop key ⟨11, col⟩ (.range "i" (.int ⟨3, col⟩ 1)
        (.binary ⟨6, col⟩ .add (.int ⟨4, col⟩ (Int64.ofNat n)) (.int ⟨5, col⟩ 1)) none)
       [.compound ⟨10, col⟩ "sum" .add (.binary ⟨9, col⟩ .mul (.ident ⟨7, col⟩ "i") (.ident ⟨8, col⟩ "i"))]] :=
  rfl

theorem sumOfSquares_runs (n : Nat) (hn : n < 2 ^ 31) (col key : Nat) :
    Runs (n + 9) (execBlock · ((sumOfSquares.body n).program col key).1) [[]] .none
      [[("sum", .int (sumOfSquares.want n))]] := by
  rw [sumOfSquares_program]
  refine runs_cons _ (runs_declare (Evals.int 0)) (runs_cons _ ?_ (runs_nil rfl))
  refine (runs_counted_reads (B := 2) n
    (fun k => [[("sum", .int (sumBelow k fun i => Int64.ofNat (i + 1) * Int64.ofNat (i + 1)))]])
    (Evals.int 1) (Evals.binary (.int (Int64.ofNat n)) (.int 1) (by decide) (Evals.int _) (Evals.int _) rfl)
    (trips_to_succ (a := 1) (by omega) (by omega)) fun k _ => ?_).mono (by omega)
  refine runs_cons _ (runs_compound (.int (sumBelow k fun i => Int64.ofNat (i + 1) * Int64.ofNat (i + 1)))
    (.int ((1 + Int64.ofNat k) * (1 + Int64.ofNat k))) (by simp [Bindings.get?])
    (Evals.binary (.int (1 + Int64.ofNat k)) (.int (1 + Int64.ofNat k)) (by decide)
      (Evals.ident (by simp [Bindings.get?])) (Evals.ident (by simp [Bindings.get?])) rfl) rfl) (runs_nil ?_)
  simp [Scopes.set, Bindings.has, Bindings.put, sumBelow_succ k, one_add_ofNat]

theorem factorial_program (n col key : Nat) : ((factorial.body n).program col key).1 =
    [.declare ⟨2, col⟩ "result" (.int ⟨1, col⟩ 1),
     .loop key ⟨9, col⟩ (.range "i" (.int ⟨3, col⟩ 1)
        (.binary ⟨6, col⟩ .add (.int ⟨4, col⟩ (Int64.ofNat n)) (.int ⟨5, col⟩ 1)) none)
       [.compound ⟨8, col⟩ "result" .mul (.ident ⟨7, col⟩ "i")]] :=
  rfl

theorem factorial_runs (n : Nat) (hn : n < 2 ^ 31) (col key : Nat) :
    Runs (n + 9) (execBlock · ((factorial.body n).program col key).1) [[]] .none
      [[("result", .int (factorial.want n))]] := by
  rw [factorial_program]
  refine runs_cons _ (runs_declare (Evals.int 1)) (runs_cons _ ?_ (runs_nil rfl))
  refine (runs_counted_reads (B := 2) n
    (fun k => [[("result", .int ((List.range k).foldl (fun acc i => acc * Int64.ofNat (i + 1)) 1))]])
    (Evals.int 1) (Evals.binary (.int (Int64.ofNat n)) (.int 1) (by decide) (Evals.int _) (Evals.int _) rfl)
    (trips_to_succ (a := 1) (by omega) (by omega)) fun k _ => ?_).mono (by omega)
  refine runs_cons _ (runs_compound (.int ((List.range k).foldl (fun acc i => acc * Int64.ofNat (i + 1)) 1))
    (.int (1 + Int64.ofNat k)) (by simp [Bindings.get?]) (Evals.ident (by simp [Bindings.get?])) rfl)
    (runs_nil ?_)
  simp [Scopes.set, Bindings.has, Bindings.put, List.range_succ, List.foldl_append, one_add_ofNat]

theorem invariantScale_program (n col key : Nat) : ((invariantScale.body n).program col key).1 =
    [.declare ⟨2, col⟩ "k" (.int ⟨1, col⟩ 3), .declare ⟨4, col⟩ "sum" (.int ⟨3, col⟩ 0),
     .loop key ⟨17, col⟩ (.range "i" (.int ⟨5, col⟩ 0) (.int ⟨6, col⟩ (Int64.ofNat n)) none)
       [.compound ⟨12, col⟩ "sum" .add (.binary ⟨11, col⟩ .mul (.ident ⟨7, col⟩ "i")
          (.binary ⟨10, col⟩ .add (.ident ⟨8, col⟩ "k") (.int ⟨9, col⟩ 5))),
        .compound ⟨16, col⟩ "sum" .add (.binary ⟨15, col⟩ .mul (.ident ⟨13, col⟩ "i") (.int ⟨14, col⟩ 10))]] := by
  simp only [Build.program, invariantScale, Build.all, List.mapM_cons, List.mapM_nil, Build.declare,
    Build.int, Build.bin, Build.ident, Build.forRange, Build.compound, Build.next, id_eq, StateT.run_bind]
  rfl

theorem invariantScale_runs (n : Nat) (hn : n < 2 ^ 31) (col key : Nat) :
    Runs (n + 11) (execBlock · ((invariantScale.body n).program col key).1) [[]] .none
      [[("k", .int 3), ("sum", .int (invariantScale.want n))]] := by
  rw [invariantScale_program]
  refine runs_cons _ (runs_declare (Evals.int 3))
    (runs_cons _ (runs_declare (Evals.int 0)) (runs_cons _ ?_ (runs_nil rfl)))
  refine (runs_counted_reads (B := 3) n
    (fun k => [[("k", .int 3), ("sum", .int (sumBelow k fun i => Int64.ofNat i * 8 + Int64.ofNat i * 10))]])
    (Evals.int 0) (Evals.int _) (trips_ofNat (a := 0) (by omega) (by omega)) fun k _ => ?_).mono (by omega)
  -- the two updates, each reading the sum the first one left
  let S := sumBelow k fun i => Int64.ofNat i * 8 + Int64.ofNat i * 10
  refine runs_cons _ (runs_compound (.int S) (.int ((0 + Int64.ofNat k) * (3 + 5))) (by simp [S, Bindings.get?])
    (Evals.binary (.int (0 + Int64.ofNat k)) (.int (3 + 5)) (by decide) (Evals.ident (by simp [Bindings.get?]))
      (Evals.binary (.int 3) (.int 5) (by decide) (Evals.ident (by simp [Bindings.get?])) (Evals.int _) rfl) rfl)
    rfl) (runs_cons _ (runs_compound (.int (S + (0 + Int64.ofNat k) * (3 + 5))) (.int ((0 + Int64.ofNat k) * 10))
      (by simp [Scopes.set, Bindings.has, Bindings.put, Bindings.get?])
      (Evals.binary (.int (0 + Int64.ofNat k)) (.int 10) (by decide)
        (Evals.ident (by simp [Scopes.set, Bindings.has, Bindings.put, Bindings.get?])) (Evals.int _) rfl) rfl)
    (runs_nil ?_))
  simp [Scopes.set, Bindings.has, Bindings.put, S, sumBelow_succ k, Int64.add_assoc]

theorem absDistanceSum_program (n col key : Nat) : ((absDistanceSum.body n).program col key).1 =
    [.declare ⟨2, col⟩ "sum" (.int ⟨1, col⟩ 0),
     .loop key ⟨12, col⟩ (.range "i" (.int ⟨3, col⟩ 0) (.int ⟨4, col⟩ (Int64.ofNat n)) none)
       [.assign ⟨11, col⟩ "sum" (.binary ⟨10, col⟩ .add (.ident ⟨5, col⟩ "sum")
          (.call ⟨9, col⟩ "abs"
            [.binary ⟨8, col⟩ .sub (.ident ⟨6, col⟩ "i") (.int ⟨7, col⟩ (Int64.ofNat (n / 2)))]))]] :=
  rfl

theorem absDistanceSum_runs (n : Nat) (hn : n < 2 ^ 31) (col key : Nat) :
    Runs (n + 9) (execBlock · ((absDistanceSum.body n).program col key).1) [[]] .none
      [[("sum", .int (absDistanceSum.want n))]] := by
  rw [absDistanceSum_program]
  refine runs_cons _ (runs_declare (Evals.int 0)) (runs_cons _ ?_ (runs_nil rfl))
  let d (i : Nat) : Int64 := Int64.ofNat i - Int64.ofNat (n / 2)
  refine (runs_counted_reads (B := 2) n
    (fun k => [[("sum", .int (sumBelow k fun i => if d i < 0 then -d i else d i))]])
    (Evals.int 0) (Evals.int _) (trips_ofNat (a := 0) (by omega) (by omega)) fun k _ => ?_).mono (by omega)
  refine runs_cons _ (runs_assign (Evals.binary (.int (sumBelow k fun i => if d i < 0 then -d i else d i)) _
    (by decide) (Evals.ident (by simp [Bindings.get?]))
    (Evals.call [.int (0 + Int64.ofNat k - Int64.ofNat (n / 2))] rfl
      (EvalsAll.cons (Evals.binary (.int (0 + Int64.ofNat k)) (.int (Int64.ofNat (n / 2))) (by decide)
        (Evals.ident (by simp [Bindings.get?])) (Evals.int _) rfl) EvalsAll.nil) rfl) rfl)
    (by simp [Bindings.get?])) (runs_nil ?_)
  simp [Scopes.set, Bindings.has, Bindings.put, sumBelow_succ k, d]

/-! ## The collection sum -/

/-- The integer literals `0, …, n - 1`, finished one after another from line
`line + 1` on. -/
theorem all_ints_run (col line : Nat) : ∀ n : Nat,
    (Build.all ((List.range n).map fun i => Build.int (Int64.ofNat i))).run ⟨col, line⟩ =
      ((List.range n).map fun i => .int ⟨(line + i + 1 : Nat), col⟩ (Int64.ofNat i), ⟨col, line + n⟩)
  | 0 => rfl
  | n + 1 => by
    have ih := all_ints_run col line n
    simp only [Build.all] at ih ⊢
    simp only [List.range_succ, List.map_append, List.mapM_append, StateT.run_bind, ih]
    rfl

/-- The array literal `[0, …, n - 1]`: its elements, then the array. -/
theorem ints_run (n col line : Nat) : (Build.ints n).run ⟨col, line⟩ =
    (.array ⟨(line + n + 1 : Nat), col⟩ ((List.range n).map fun i => .int ⟨(line + i + 1 : Nat), col⟩ (Int64.ofNat i)),
      ⟨col, line + n + 1⟩) := by
  simp only [Build.ints, StateT.run_bind, all_ints_run]
  rfl

theorem arraySum_program (n col key : Nat) : ((arraySum.body n).program col key).1 =
    [.declare ⟨(n + 2 : Nat), col⟩ "arr"
       (.array ⟨(n + 1 : Nat), col⟩ ((List.range n).map fun i => .int ⟨(i + 1 : Nat), col⟩ (Int64.ofNat i))),
     .declare ⟨(n + 4 : Nat), col⟩ "sum" (.int ⟨(n + 3 : Nat), col⟩ 0),
     .loop key ⟨(n + 8 : Nat), col⟩ (.each "x" (.ident ⟨(n + 5 : Nat), col⟩ "arr"))
       [.compound ⟨(n + 7 : Nat), col⟩ "sum" .add (.ident ⟨(n + 6 : Nat), col⟩ "x")]] := by
  have h := ints_run n col 0
  simp only [Nat.zero_add] at h
  simp only [Build.program, arraySum, Build.all, List.mapM_cons, List.mapM_nil, Build.declare, id_eq,
    StateT.run_bind, h]
  rfl

theorem arraySum_runs (n col key : Nat) :
    Runs (n + 10) (execBlock · ((arraySum.body n).program col key).1) [[]] .none
      [[("arr", .array ((List.range n).map fun i => .int (Int64.ofNat i))), ("sum", .int (arraySum.want n))]] := by
  rw [arraySum_program]
  let arr : Value := .array ((List.range n).map fun i => .int (Int64.ofNat i))
  refine runs_cons _ (runs_declare (Evals.array (EvalsAll.ints _ _ _)))
    (runs_cons _ (runs_declare (Evals.int 0)) (runs_cons _ ?_ (runs_nil rfl)))
  refine (runs_each_reads (B := 2) (fun i => .int (Int64.ofNat i)) n
    (fun k => [[("arr", arr), ("sum", .int (sumBelow k Int64.ofNat))]])
    (Evals.ident (by simp [arr, Bindings.get?])) fun k _ => ?_).mono (by omega)
  refine runs_cons _ (runs_compound (.int (sumBelow k Int64.ofNat)) (.int (Int64.ofNat k))
    (by simp [Bindings.get?]) (Evals.ident (by simp [Bindings.get?])) rfl) (runs_nil ?_)
  simp [Scopes.set, Bindings.has, Bindings.put, sumBelow_succ k]

end Workload

end HotLoop
