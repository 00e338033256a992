import HotLoop.Proofs.Workload.Sums
/-!
# HotLoop.Proofs.Workload.Nested

The catalog programs built on conditional loops, alone or nested: each
leaves in its result global the answer the catalog gives for it, for every
problem size below `2 ^ 31`.

* `simpleWhile_runs`: `while i <= n`, summing `i`.
* `nestedWhile_runs`, `nestedProducts_runs`: a conditional loop inside a
  conditional loop, the inner one declared afresh by every outer iteration.
* `complexLoop_runs`: a counted loop around a conditional loop whose body
  branches on the parity of its counter.

A conditional loop counting up to `n` has its condition true for exactly
the first `n` iterations; that is where the bound on the problem size
comes in, so that the counters never wrap.
-/

namespace HotLoop

open Run

namespace Workload

/-- The condition `k + 1 <= n` of a loop counting from 1, evaluated. -/
theorem le_truthy {k n : Nat} (hk : k + 1 < 2 ^ 63) (hn : n < 2 ^ 63) :
    (Value.bool (decide (Int64.ofNat (k + 1) ≤ Int64.ofNat n))).truthy = decide (k < n) := by
  simp only [Value.truthy, decide_eq_decide, Int64.ofNat_le_iff_le hk hn]
  omega

theorem simpleWhile_program (n col key : Nat) : ((simpleWhile.body n).program col key).1 =
    [.declare ⟨2, col⟩ "sum" (.int ⟨1, col⟩ 0), .declare ⟨4, col⟩ "i" (.int ⟨3, col⟩ 1),
     .loop key ⟨16, col⟩ (.cond (.binary ⟨7, col⟩ .le (.ident ⟨5, col⟩ "i") (.int ⟨6, col⟩ (Int64.ofNat n))))
       [.assign ⟨11, col⟩ "sum" (.binary ⟨10, col⟩ .add (.ident ⟨8, col⟩ "sum") (.ident ⟨9, col⟩ "i")),
        .assign ⟨15, col⟩ "i" (.binary ⟨14, col⟩ .add (.ident ⟨12, col⟩ "i") (.int ⟨13, col⟩ 1))]] := by
  simp only [Build.program, simpleWhile, Build.all, List.mapM_cons, List.mapM_nil, Build.declare,
    Build.int, Build.bin, Build.ident, Build.whileDo, Build.assign, Build.next, id_eq, StateT.run_bind]
  rfl

theorem simpleWhile_runs (n : Nat) (hn : n < 2 ^ 31) (col key : Nat) :
    Runs (n + 11) (execBlock · ((simpleWhile.body n).program col key).1) [[]] .none
      [[("sum", .int (simpleWhile.want n)), ("i", .int (Int64.ofNat (n + 1)))]] := by
  rw [simpleWhile_program]
  let S (k : Nat) : List Bindings :=
    [[("sum", .int (sumBelow (k + 1) Int64.ofNat)), ("i", .int (Int64.ofNat (k + 1)))]]
  refine runs_cons _ (runs_declare (Evals.int 0)) (runs_cons _ (runs_declare (Evals.int 1))
    (runs_cons _ ?_ (runs_nil rfl)))
  refine (runs_while_empty (B := 3) n S (fun k hk => ?_) (fun k hk => ?_)).conv (by omega) ?_ rfl
  · -- `i <= n` holds for the first `n` iterations
    exact ⟨_, Evals.binary (.int (Int64.ofNat (k + 1))) (.int (Int64.ofNat n)) (by decide)
      (Evals.ident (by simp [S, Bindings.get?])) (Evals.int _) rfl, le_truthy (by omega) (by omega)⟩
  · refine runs_cons _ (runs_assign (Evals.binary (.int (sumBelow (k + 1) Int64.ofNat))
      (.int (Int64.ofNat (k + 1))) (by decide) (Evals.ident (by simp [S, Bindings.get?]))
      (Evals.ident (by simp [S, Bindings.get?])) rfl) (by simp [S, Bindings.get?]))
      (runs_cons _ (runs_assign (Evals.binary (.int (Int64.ofNat (k + 1))) (.int 1) (by decide)
        (Evals.ident (by simp [S, Scopes.set, Bindings.has, Bindings.put, Bindings.get?])) (Evals.int _) rfl)
        (by simp [S, Scopes.set, Bindings.has, Bindings.put, Bindings.get?])) (runs_nil ?_))
    simp [S, Scopes.set, Bindings.has, Bindings.put, sumBelow_succ (k + 1)]
  · simp [S, Bindings.put, sumBelow]

/-! ## Nested conditional loops -/

theorem nestedWhile_program (n col key : Nat) : ((nestedWhile.body n).program col key).1 =
    [.declare ⟨2, col⟩ "sum" (.int ⟨1, col⟩ 0), .declare ⟨4, col⟩ "i" (.int ⟨3, col⟩ 1),
     .loop key ⟨26, col⟩ (.cond (.binary ⟨7, col⟩ .le (.ident ⟨5, col⟩ "i") (.int ⟨6, col⟩ (Int64.ofNat n))))
       [.declare ⟨9, col⟩ "j" (.int ⟨8, col⟩ 1),
        .loop (key + 1) ⟨21, col⟩
          (.cond (.binary ⟨12, col⟩ .le (.ident ⟨10, col⟩ "j") (.int ⟨11, col⟩ (Int64.ofNat n))))
          [.assign ⟨16, col⟩ "sum" (.binary ⟨15, col⟩ .add (.ident ⟨13, col⟩ "sum") (.int ⟨14, col⟩ 1)),
           .assign ⟨20, col⟩ "j" (.binary ⟨19, col⟩ .add (.ident ⟨17, col⟩ "j") (.int ⟨18, col⟩ 1))],
        .assign ⟨25, col⟩ "i" (.binary ⟨24, col⟩ .add (.ident ⟨22, col⟩ "i") (.int ⟨23, col⟩ 1))]] := by
  simp only [Build.program, nestedWhile, Build.all, List.mapM_cons, List.mapM_nil, Build.declare,
    Build.int, Build.bin, Build.ident, Build.whileDo, Build.assign, Build.next, id_eq, StateT.run_bind]
  rfl

theorem nestedWhile_runs (n : Nat) (hn : n < 2 ^ 31) (col key : Nat) :
    Runs (2 * n + 20) (execBlock · ((nestedWhile.body n).program col key).1) [[]] .none
      [[("sum", .int (nestedWhile.want n)), ("i", .int (Int64.ofNat (n + 1)))]] := by
  rw [nestedWhile_program]
  -- the globals after `i` outer iterations
  let G (i : Nat) : Bindings :=
    [("sum", .int (Int64.ofNat i * Int64.ofNat n)), ("i", .int (Int64.ofNat (i + 1)))]
  -- the scopes around the inner loop after `j` of its iterations, in outer iteration `i`
  let S (i j : Nat) : List Bindings :=
    [[("j", .int (Int64.ofNat (j + 1)))],
     [("sum", .int (Int64.ofNat i * Int64.ofNat n + Int64.ofNat j)), ("i", .int (Int64.ofNat (i + 1)))]]
  refine runs_cons _ (runs_declare (Evals.int 0)) (runs_cons _ (runs_declare (Evals.int 1))
    (runs_cons _ ?_ (runs_nil rfl)))
  refine (runs_while_steps (B := n + 12) n (fun loc => loc = [] ∨ ∃ v, loc = [("j", v)]) (fun i => [G i])
    (.inl rfl) (fun i hi loc hloc => ?_) (fun i hi loc hloc => ?_)).conv (by omega) ?_ ?_
  · -- the outer condition `i <= n`
    rcases hloc with rfl | ⟨v, rfl⟩ <;>
      exact ⟨_, Evals.binary (.int (Int64.ofNat (i + 1))) (.int (Int64.ofNat n)) (by decide)
        (Evals.ident (by simp [G, Bindings.get?])) (Evals.int _) rfl, le_truthy (by omega) (by omega)⟩
  · -- an outer iteration: a fresh `j`, the inner loop adding 1 `n` times, then `i++`
    have hput : loc.put "j" (.int 1) = [("j", .int 1)] := by
      rcases hloc with rfl | ⟨v, rfl⟩ <;> simp [Bindings.put]
    refine ⟨[("j", .int (Int64.ofNat (n + 1)))], .inr ⟨_, rfl⟩, ?_⟩
    refine runs_cons _ (runs_declare (Evals.int 1)) (runs_cons (S i n) ?_
      (runs_cons _ (runs_assign (Evals.binary (.int (Int64.ofNat (i + 1))) (.int 1) (by decide)
        (Evals.ident (by simp [S, Bindings.get?])) (Evals.int _) rfl) (by simp [S, Bindings.get?]))
        (runs_nil ?_)))
    · refine (runs_while_empty (B := 3) n (S i) (fun j hj => ?_) (fun j hj => ?_)).conv (by omega) ?_ rfl
      · exact ⟨_, Evals.binary (.int (Int64.ofNat (j + 1))) (.int (Int64.ofNat n)) (by decide)
          (Evals.ident (by simp [S, Bindings.get?])) (Evals.int _) rfl, le_truthy (by omega) (by omega)⟩
      · refine runs_cons _ (runs_assign (Evals.binary (.int (Int64.ofNat i * Int64.ofNat n + Int64.ofNat j))
          (.int 1) (by decide) (Evals.ident (by simp [S, Bindings.get?])) (Evals.int _) rfl)
          (by simp [S, Bindings.get?])) (runs_cons _ (runs_assign (Evals.binary (.int (Int64.ofNat (j + 1)))
          (.int 1) (by decide) (Evals.ident (by simp [S, Scopes.set, Bindings.has, Bindings.put, Bindings.get?]))
          (Evals.int _) rfl) (by simp [S, Scopes.set, Bindings.has, Bindings.put, Bindings.get?])) (runs_nil ?_))
        simp [S, Scopes.set, Bindings.has, Bindings.put, Int64.add_assoc]
      · simp [S, G, hput]
    · simp [S, G, Scopes.set, Bindings.has, Bindings.put]
      grind
  · simp [G, Bindings.put]
  · rfl

theorem nestedProducts_program (n col key : Nat) : ((nestedProducts.body n).program col key).1 =
    [.declare ⟨2, col⟩ "sum" (.int ⟨1, col⟩ 0), .declare ⟨4, col⟩ "i" (.int ⟨3, col⟩ 1),
     .loop key ⟨22, col⟩ (.cond (.binary ⟨7, col⟩ .le (.ident ⟨5, col⟩ "i") (.int ⟨6, col⟩ (Int64.ofNat n))))
       [.declare ⟨9, col⟩ "j" (.int ⟨8, col⟩ 1),
        .loop (key + 1) ⟨19, col⟩
          (.cond (.binary ⟨12, col⟩ .le (.ident ⟨10, col⟩ "j") (.int ⟨11, col⟩ (Int64.ofNat n))))
          [.compound ⟨16, col⟩ "sum" .add (.binary ⟨15, col⟩ .mul (.ident ⟨13, col⟩ "i") (.ident ⟨14, col⟩ "j")),
           .compound ⟨18, col⟩ "j" .add (.int ⟨17, col⟩ 1)],
        .compound ⟨21, col⟩ "i" .add (.int ⟨20, col⟩ 1)]] := by
  simp only [Build.program, nestedProducts, Build.all, List.mapM_cons, List.mapM_nil, Build.declare,
    Build.int, Build.bin, Build.ident, Build.whileDo, Build.compound, Build.next, id_eq, StateT.run_bind]
  rfl

theorem nestedProducts_runs (n : Nat) (hn : n < 2 ^ 31) (col key : Nat) :
    Runs (2 * n + 20) (execBlock · ((nestedProducts.body n).program col key).1) [[]] .none
      [[("sum", .int (nestedProducts.want n)), ("i", .int (Int64.ofNat (n + 1)))]] := by
  rw [nestedProducts_program]
  -- the products of row `i`
  let row (i j : Nat) : Int64 := Int64.ofNat (i + 1) * Int64.ofNat (j + 1)
  let G (i : Nat) : Bindings :=
    [("sum", .int (sumBelow i fun i => sumBelow n (row i))), ("i", .int (Int64.ofNat (i + 1)))]
  let S (i j : Nat) : List Bindings :=
    [[("j", .int (Int64.ofNat (j + 1)))],
     [("sum", .int ((sumBelow i fun i => sumBelow n (row i)) + sumBelow j (row i))),
      ("i", .int (Int64.ofNat (i + 1)))]]
  refine runs_cons _ (runs_declare (Evals.int 0)) (runs_cons _ (runs_declare (Evals.int 1))
    (runs_cons _ ?_ (runs_nil rfl)))
  refine (runs_while_steps (B := n + 12) n (fun loc => loc = [] ∨ ∃ v, loc = [("j", v)]) (fun i => [G i])
    (.inl rfl) (fun i hi loc hloc => ?_) (fun i hi loc hloc => ?_)).conv (by omega) ?_ ?_
  · rcases hloc with rfl | ⟨v, rfl⟩ <;>
      exact ⟨_, Evals.binary (.int (Int64.ofNat (i + 1))) (.int (Int64.ofNat n)) (by decide)
        (Evals.ident (by simp [G, Bindings.get?])) (Evals.int _) rfl, le_truthy (by omega) (by omega)⟩
  · -- an outer iteration adds row `i`
    have hput : loc.put "j" (.int 1) = [("j", .int 1)] := by
      rcases hloc with rfl | ⟨v, rfl⟩ <;> simp [Bindings.put]
    refine ⟨[("j", .int (Int64.ofNat (n + 1)))], .inr ⟨_, rfl⟩, ?_⟩
    refine runs_cons _ (runs_declare (Evals.int 1)) (runs_cons (S i n) ?_
      (runs_cons _ (runs_compound (.int (Int64.ofNat (i + 1))) (.int 1) (by simp [S, Bindings.get?])
        (Evals.int _) rfl) (runs_nil ?_)))
    · refine (runs_while_empty (B := 3) n (S i) (fun j hj => ?_) (fun j hj => ?_)).conv (by omega) ?_ rfl
      · exact ⟨_, Evals.binary (.int (Int64.ofNat (j + 1))) (.int (Int64.ofNat n)) (by decide)
          (Evals.ident (by simp [S, Bindings.get?])) (Evals.int _) rfl, le_truthy (by omega) (by omega)⟩
      · refine runs_cons _ (runs_compound (.int ((sumBelow i fun i => sumBelow n (row i)) + sumBelow j (row i)))
          (.int (row i j)) (by simp [S, Bindings.get?])
          (Evals.binary (.int (Int64.ofNat (i + 1))) (.int (Int64.ofNat (j + 1))) (by decide)
            (Evals.ident (by simp [S, Bindings.get?])) (Evals.ident (by simp [S, Bindings.get?])) rfl) rfl)
          (runs_cons _ (runs_compound (.int (Int64.ofNat (j + 1))) (.int 1)
            (by simp [S, Scopes.set, Bindings.has, Bindings.put, Bindings.get?]) (Evals.int _) rfl)
            (runs_nil ?_))
        simp [S, Scopes.set, Bindings.has, Bindings.put, sumBelow_succ j, Int64.add_assoc]
      · simp [S, G, hput, sumBelow]
    · simp [S, G, Scopes.set, Bindings.has, Bindings.put, sumBelow_succ i]
  · simp [G, Bindings.put, sumBelow]
  · rfl

/-! ## A conditional loop inside a counted loop -/

/-- Loose equality `==` on two integers compares them. -/
theorem looseEq_int (x y : Int64) : Value.looseEq (.int x) (.int y) = (x == y) := by
  simp [Value.looseEq, Value.same, Value.kind]

/-- The divisibility test `j % d == 0` on small naturals. -/
theorem ofNat_mod_beq_zero {j d : Nat} (hj : j < 2 ^ 63) (hd : d < 2 ^ 63) :
    (Int64.ofNat j % Int64.ofNat d == 0) = decide (j % d = 0) := by
  rw [← Int64.ofNat_mod hj hd]
  have hlt : j % d < 2 ^ 63 := Nat.lt_of_le_of_lt (Nat.mod_le j d) hj
  rw [beq_eq_decide, decide_eq_decide, ← Int64.toInt_inj, Int64.toInt_ofNat_of_lt hlt, Int64.toInt_zero]
  exact Int.natCast_eq_zero

/-- The parity terms up to `j + 1` are those up to `j` and one more. -/
theorem parityTerm_succ (j : Nat) : parityTerm (j + 1) =
    parityTerm j + if (j + 1) % 2 = 0 then Int64.ofNat (j + 1) * Int64.ofNat (j + 1) else Int64.ofNat (j + 1) := by
  rw [parityTerm, sumBelow_succ (j + 1)]
  rfl

theorem complexLoop_program (n col key : Nat) : ((complexLoop.body n).program col key).1 =
    [.declare ⟨2, col⟩ "result" (.int ⟨1, col⟩ 0),
     .loop key ⟨31, col⟩ (.range "i" (.int ⟨3, col⟩ 1)
        (.binary ⟨6, col⟩ .add (.int ⟨4, col⟩ (Int64.ofNat n)) (.int ⟨5, col⟩ 1)) none)
       [.declare ⟨8, col⟩ "temp" (.int ⟨7, col⟩ 0), .declare ⟨10, col⟩ "j" (.int ⟨9, col⟩ 1),
        .loop (key + 1) ⟨28, col⟩ (.cond (.binary ⟨13, col⟩ .le (.ident ⟨11, col⟩ "j") (.ident ⟨12, col⟩ "i")))
          [.cond ⟨25, col⟩ (.binary ⟨18, col⟩ .eq
              (.binary ⟨16, col⟩ .mod (.ident ⟨14, col⟩ "j") (.int ⟨15, col⟩ 2)) (.int ⟨17, col⟩ 0))
            [.compound ⟨22, col⟩ "temp" .add (.binary ⟨21, col⟩ .mul (.ident ⟨19, col⟩ "j") (.ident ⟨20, col⟩ "j"))]
            [.compound ⟨24, col⟩ "temp" .add (.ident ⟨23, col⟩ "j")],
           .compound ⟨27, col⟩ "j" .add (.int ⟨26, col⟩ 1)],
        .compound ⟨30, col⟩ "result" .add (.ident ⟨29, col⟩ "temp")]] := by
  simp only [Build.program, complexLoop, Build.all, List.mapM_cons, List.mapM_nil, Build.declare,
    Build.int, Build.bin, Build.ident, Build.forRange, Build.whileDo, Build.ifThen, Build.compound,
    Build.next, id_eq, StateT.run_bind]
  rfl

theorem complexLoop_runs (n : Nat) (hn : n < 2 ^ 31) (col key : Nat) :
    Runs (2 * n + 19) (execBlock · ((complexLoop.body n).program col key).1) [[]] .none
      [[("result", .int (complexLoop.want n))]] := by
  rw [complexLoop_program]
  let R (k : Nat) : Int64 := sumBelow k fun i => parityTerm (i + 1)
  refine runs_cons _ (runs_declare (Evals.int 0)) (runs_cons _ ?_ (runs_nil rfl))
  refine (runs_counted_steps (B := n + 12) n
    (fun loc => loc = [] ∨ ∃ a b c, loc = [("i", a), ("temp", b), ("j", c)])
    (fun k => [[("result", .int (R k))]]) (Evals.int 1)
    (Evals.binary (.int (Int64.ofNat n)) (.int 1) (by decide) (Evals.int _) (Evals.int _) rfl)
    (trips_to_succ (a := 1) (by omega) (by omega)) (.inl rfl) fun k hk loc hloc => ?_).conv
    (by omega) rfl rfl
  -- iteration `k` runs the inner loop over `j = 1 … k + 1`, then adds the parity term of `k + 1`
  let vi : Value := .int (1 + Int64.ofNat k)
  let S (j : Nat) : List Bindings :=
    [[("i", vi), ("temp", .int (parityTerm j)), ("j", .int (Int64.ofNat (j + 1)))], [("result", .int (R k))]]
  have hput : ((loc.put "i" (.int (1 + Int64.ofNat k))).put "temp" (.int 0)).put "j" (.int 1) =
      [("i", .int (1 + Int64.ofNat k)), ("temp", .int 0), ("j", .int 1)] := by
    rcases hloc with rfl | ⟨a, b, c, rfl⟩ <;> simp [Bindings.put]
  refine ⟨[("i", vi), ("temp", .int (parityTerm (k + 1))), ("j", .int (Int64.ofNat (k + 1 + 1)))],
    .inr ⟨_, _, _, rfl⟩, ?_⟩
  refine runs_cons _ (runs_declare (Evals.int 0)) (runs_cons _ (runs_declare (Evals.int 1))
    (runs_cons (S (k + 1)) ?_ (runs_cons _ (runs_compound (.int (R k)) (.int (parityTerm (k + 1)))
      (by simp [S, Bindings.get?]) (Evals.ident (by simp [S, Bindings.get?])) rfl) (runs_nil ?_))))
  · refine (runs_while_empty (B := 4) (k + 1) S (fun j hj => ?_) (fun j hj => ?_)).conv (by omega) ?_ rfl
    · -- `j <= i` holds for `j = 1 … k + 1`
      refine ⟨_, Evals.binary (.int (Int64.ofNat (j + 1))) vi (by decide)
        (Evals.ident (by simp [S, Bindings.get?])) (Evals.ident (by simp [S, vi, Bindings.get?])) rfl, ?_⟩
      rw [one_add_ofNat]
      exact le_truthy (by omega) (by omega)
    · -- the parity branch adds `j * j` for an even `j` and `j` for an odd one
      let T := parityTerm j
      let vj := Int64.ofNat (j + 1)
      refine runs_cons ([] :: [[("i", vi), ("temp", .int (parityTerm (j + 1))), ("j", .int vj)],
          [("result", .int (R k))]]) (runs_cond (.bool (Value.looseEq (.int (vj % Int64.ofNat 2)) (.int 0)))
        (Evals.binary (.int (vj % Int64.ofNat 2)) (.int 0) (by decide)
          (Evals.binary (.int vj) (.int (Int64.ofNat 2)) (by decide)
          (Evals.ident (by simp [S, vj, Bindings.get?])) (Evals.int _) rfl) (Evals.int _) rfl)
        (fun heven => runs_cons _ (runs_compound (.int T) (.int (vj * vj)) (by simp [S, T, Bindings.get?])
          (Evals.binary (.int vj) (.int vj) (by decide) (Evals.ident (by simp [S, vj, Bindings.get?]))
            (Evals.ident (by simp [S, vj, Bindings.get?])) rfl) rfl) (runs_nil ?_))
        (fun hodd => runs_cons _ (runs_compound (.int T) (.int vj) (by simp [S, T, Bindings.get?])
          (Evals.ident (by simp [S, vj, Bindings.get?])) rfl) (runs_nil ?_)))
        (runs_cons _ (runs_compound (.int vj) (.int 1) (by simp [Bindings.get?]) (Evals.int _) rfl)
          (runs_nil ?_))
      · have h : (j + 1) % 2 = 0 := by
          simp only [Value.truthy, looseEq_int, vj,
            ofNat_mod_beq_zero (d := 2) (show j + 1 < 2 ^ 63 by omega) (by decide)] at heven
          simpa using heven
        simp [S, T, vj, Scopes.set, Bindings.has, Bindings.put, parityTerm_succ j, h]
      · have h : (j + 1) % 2 ≠ 0 := by
          simp only [Value.truthy, looseEq_int, vj,
            ofNat_mod_beq_zero (d := 2) (show j + 1 < 2 ^ 63 by omega) (by decide)] at hodd
          simpa using hodd
        simp [S, T, vj, Scopes.set, Bindings.has, Bindings.put, parityTerm_succ j, h]
      · simp [S, vj, Scopes.set, Bindings.has, Bindings.put]
    · simp [S, vi, hput, parityTerm, sumBelow]
  · simp [S, R, Scopes.set, Bindings.has, Bindings.put, sumBelow_succ k]

end Workload

end HotLoop
