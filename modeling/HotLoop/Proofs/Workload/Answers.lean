import HotLoop.Proofs.Workload.Search
/-!
# HotLoop.Proofs.Workload.Answers

Every catalog program computes the answer the catalog gives for it: built at
any problem size below `2 ^ 31`, in any column and from any loop key, and run
from empty globals on a plain machine, it ends normally (no error, no pending
`break` or `return`) and leaves that answer, as a 64-bit word, in its result
global.

The programs are taken one by one (`HotLoop.Proofs.Workload.Sums`,
`.Nested`, `.Search`); here their runs are brought to the machine
(`computes_of_runs`) and gathered over the catalog and its names.
-/

namespace HotLoop

open Run

namespace Workload

/-- Workload `w` at size `n` computes its answer: in every column, from every
loop key and with every memory configuration, its program run from empty
globals on a plain machine ends normally, with no error and no pending
`break`, `continue` or `return`, and leaves `w.want n` in the global
`w.result`. -/
def Computes (w : Workload) (n : Nat) : Prop :=
  ∀ col key (o : MemoryOptions), ∃ m,
    (Machine.plain o).exec ((w.body n).program col key).1 [] = (.ok .none, m) ∧
      m.globals.get? w.result = some (.int (w.want n))

/-- A program that runs within a bound far below the interpreter's fuel to
globals holding its answer computes it. -/
theorem computes_of_runs {w : Workload} {n B : Nat} {G : Bindings}
    (h : ∀ col key, Runs B (execBlock · ((w.body n).program col key).1) [[]] .none [G])
    (hB : B ≤ 2 ^ 33) (hG : G.get? w.result = some (.int (w.want n))) : Computes w n := by
  intro col key o
  have hfuel : B ≤ Machine.fuel := by
    show B ≤ 2 ^ 62
    omega
  obtain ⟨m, hexec, hglobals⟩ := Machine.exec_of_runs (h col key) hfuel o
  exact ⟨m, hexec, hglobals ▸ hG⟩

/-- Every program of the catalog computes its answer at every size below
`2 ^ 31`. -/
theorem catalog_computes (w : Workload) (hw : w ∈ catalog) (n : Nat) (hn : n < 2 ^ 31) : Computes w n := by
  simp only [catalog, List.mem_cons, List.not_mem_nil, or_false] at hw
  rcases hw with rfl | rfl | rfl | rfl | rfl | rfl | rfl | rfl | rfl | rfl | rfl | rfl | rfl
  · exact computes_of_runs (absDistanceSum_runs n hn) (by omega) (by simp [absDistanceSum, Bindings.get?])
  · exact computes_of_runs (arraySum_runs n) (by omega) (by simp [arraySum, Bindings.get?])
  · exact computes_of_runs (complexLoop_runs n hn) (by omega) (by simp [complexLoop, Bindings.get?])
  · exact computes_of_runs (countPrimes_runs n hn) (by omega) (by simp [countPrimes, Bindings.get?])
  · exact computes_of_runs (factorial_runs n hn) (by omega) (by simp [factorial, Bindings.get?])
  · exact computes_of_runs (firstMultiple_runs n hn) (by omega) (by simp [firstMultiple, Bindings.get?])
  · exact computes_of_runs (invariantScale_runs n hn) (by omega) (by simp [invariantScale, Bindings.get?])
  · exact computes_of_runs (nestedProducts_runs n hn) (by omega) (by simp [nestedProducts, Bindings.get?])
  · exact computes_of_runs (nestedWhile_runs n hn) (by omega) (by simp [nestedWhile, Bindings.get?])
  · exact computes_of_runs (simpleFor_runs n hn) (by omega) (by simp [simpleFor, Bindings.get?])
  · exact computes_of_runs (simpleWhile_runs n hn) (by omega) (by simp [simpleWhile, Bindings.get?])
  · exact computes_of_runs (sumOfSquares_runs n hn) (by omega) (by simp [sumOfSquares, Bindings.get?])
  · exact computes_of_runs (sumRange_runs n hn) (by omega) (by simp [sumRange, Bindings.get?])

/-- **Every named workload computes its answer.** For every name the catalog
lists, the workload of that name, built at any size below `2 ^ 31`, in any
column and from any loop key, and run from empty globals on a plain machine,
ends normally and leaves its answer in its result global. -/
theorem names_compute_want {name : String} (hname : name ∈ names) {n : Nat} (hn : n < 2 ^ 31)
    (col key : Nat) (o : MemoryOptions) :
    ∃ w, find? name = some w ∧ ∃ m,
      (Machine.plain o).exec ((w.body n).program col key).1 [] = (.ok .none, m) ∧
        m.globals.get? w.result = some (.int (w.want n)) := by
  obtain ⟨w, hw, rfl⟩ := List.mem_map.1 hname
  -- the search by name finds some entry of that name, which is in the catalog
  obtain ⟨w', hw'⟩ : ∃ w', find? w.name = some w' :=
    Option.isSome_iff_exists.1 (List.find?_isSome.2 ⟨w, hw, beq_self_eq_true _⟩)
  exact ⟨w', hw', catalog_computes w' (List.mem_of_find?_eq_some hw') n hn col key o⟩

theorem count_primes_computes_want : "count_primes" ∈ names ∧ 1000 < 2 ^ 31 ∧
    ∃ w, find? "count_primes" = some w ∧ ∃ m,
      (Machine.plain {}).exec ((w.body 1000).program 0 0).1 [] = (.ok .none, m) ∧
      m.globals.get? w.result = some (.int (w.want 1000)) :=
  have hname : "count_primes" ∈ names := List.mem_map.2 ⟨countPrimes, by simp [catalog], rfl⟩
  ⟨hname, by norm_num, names_compute_want hname (by norm_num) 0 0 {}⟩

end Workload

end HotLoop
