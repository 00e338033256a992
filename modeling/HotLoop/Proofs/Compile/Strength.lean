import Mathlib
import HotLoop.Plan.Select
import HotLoop.Compile.Run
import HotLoop.Proofs.Plan.Reductions
/-!
# HotLoop.Proofs.Compile.Strength

Strength reduction: a multiplication by a positive literal with at most
three set bits is compiled as a sum of shifts of the other operand.

* `shiftAdd_setBits`: the shifts of the set bits of any word `c` add up to
  `x * c`, wrapping as the multiplication does; so `shiftAdd_shiftsFor`:
  the shifts the selector picks for `c` compute `x * c` for every `x`.
* `shiftScan_sites`, `Selection.choose_shiftsAt`: every strength reduction
  of a loop's plan is made at a node of the loop, for the right operand when
  it is a literal, else the left one, or for a compound `x *= c`
  (`ShiftSite`).
* `Calc.eval_scaled_mul`, `Update.exec_compound_scaled`: a scaled
  multiplication whose constant side is the literal its shifts were made
  for has the effects, values and errors of the plain multiplication.

The compiler marks the left side constant whenever the left operand is a
literal. When both operands are literals, the shifts are those of the right
one (`ShiftSite.right`), so the closure's constant side is not the literal
of its shifts and `Calc.eval_scaled_mul` does not apply: that closure
multiplies the right literal by itself (`Calc.eval_scaled_literals`).
-/

namespace HotLoop

/-! ## Shifts as multiplication -/

/-- A shift amount below 64 is taken as is. -/
theorem smod_toInt64 {k : Nat} (hk : k < 64) : (k.toInt64.toBitVec.smod 64).toNat = k := by
  have hb : k.toInt64.toBitVec = BitVec.ofNat 64 k := rfl
  have hmsb : (BitVec.ofNat 64 k).msb = false := by
    simp only [BitVec.msb_eq_decide, BitVec.toNat_ofNat, decide_eq_false_iff_not, not_le]
    omega
  have h64 : (64 : BitVec 64).msb = false := by decide
  rw [hb, BitVec.toNat_smod, hmsb, h64]
  simp
  omega

/-- Shifting left by `k < 64` multiplies by `2 ^ k`, wrapping. -/
theorem Int64.shiftLeft_toInt64 (x : Int64) {k : Nat} (hk : k < 64) :
    x <<< k.toInt64 = x * Int64.ofNat (2 ^ k) := by
  apply Int64.toBitVec_inj.mp
  rw [Int64.toBitVec_shiftLeft, Int64.toBitVec_mul, BitVec.shiftLeft_eq', smod_toInt64 hk,
    BitVec.shiftLeft_eq_mul_twoPow, Int64.toBitVec_ofNat']
  congr 1
  apply BitVec.eq_of_toNat_eq
  simp [BitVec.toNat_twoPow]

/-- The sum of shifts is `x` times the sum of the powers of two. -/
theorem foldl_shiftAdd (x : Int64) :
    ∀ (l : List Nat) (a : Int64), (∀ k ∈ l, k < 64) →
      l.foldl (fun acc s => acc + (x <<< s.toInt64)) a = a + x * Int64.ofNat (l.map (2 ^ ·)).sum
  | [], a, _ => by simp
  | k :: l, a, hl => by
    rw [List.foldl_cons, foldl_shiftAdd x l _ fun k' hk' => hl k' (List.mem_cons_of_mem _ hk'),
      Int64.shiftLeft_toInt64 x (hl k List.mem_cons_self), List.map_cons, List.sum_cons,
      Int64.ofNat_add]
    grind

/-- The powers of two of the set bits below `n` add up to `m % 2 ^ n`. -/
theorem sum_pow_testBit (m : Nat) :
    ∀ n, (((List.range n).filter (m.testBit ·)).map (2 ^ ·)).sum = m % 2 ^ n
  | 0 => by
    rw [List.range_zero, List.filter_nil, List.map_nil, List.sum_nil, pow_zero, Nat.mod_one]
  | n + 1 => by
    rw [List.range_succ, List.filter_append, List.map_append, List.sum_append, sum_pow_testBit m n,
      Nat.mod_pow_succ]
    -- bit `n` adds `2 ^ n` exactly when it is set
    have hbit : m / 2 ^ n % 2 = 0 ∨ m / 2 ^ n % 2 = 1 := Nat.mod_two_eq_zero_or_one _
    rcases hbit with h | h <;>
      simp [Nat.testBit_eq_decide_div_mod_eq, h]

/-- The selector's bit test is the bit of the word. -/
theorem testBit_toUInt64 (c : Int64) {k : Nat} (hk : k < 64) :
    ((c.toUInt64 >>> k.toUInt64) &&& 1 == 1) = c.toUInt64.toNat.testBit k := by
  have hk' : k.toUInt64.toNat % 64 = k := by simp; omega
  have hand : ((c.toUInt64 >>> k.toUInt64) &&& 1).toNat = c.toUInt64.toNat / 2 ^ k % 2 := by
    rw [UInt64.toNat_and, UInt64.toNat_shiftRight, hk', Nat.shiftRight_eq_div_pow]
    simp [Nat.and_one_is_mod]
  rw [Nat.testBit_eq_decide_div_mod_eq, Bool.eq_iff_iff, beq_iff_eq, decide_eq_true_iff,
    ← UInt64.toNat_inj, hand]
  rfl

/-- The shifts of the set bits of `c` compute `x * c`, wrapping: a word is
the sum of the powers of two of its set bits. -/
theorem shiftAdd_setBits (x c : Int64) :
    shiftAdd x ((List.range 64).filter fun k => (c.toUInt64 >>> k.toUInt64) &&& 1 == 1) = x * c := by
  have hbits : ((List.range 64).filter fun k => (c.toUInt64 >>> k.toUInt64) &&& 1 == 1) =
      (List.range 64).filter (c.toUInt64.toNat.testBit ·) :=
    List.filter_congr fun k hk => testBit_toUInt64 c (List.mem_range.mp hk)
  have hword : Int64.ofNat (c.toUInt64.toNat % 2 ^ 64) = c := by
    apply Int64.toBitVec_inj.mp
    rw [Int64.toBitVec_ofNat', Nat.mod_eq_of_lt c.toUInt64.toNat_lt]
    simp
  rw [shiftAdd, hbits, foldl_shiftAdd x _ 0 fun k hk => List.mem_range.mp (List.mem_filter.mp hk).1,
    sum_pow_testBit, hword, Int64.zero_add]

/-- The shifts picked for a literal `c` compute `x * c` for every `x`. -/
theorem shiftAdd_shiftsFor {c : Int64} {sh : List Nat} (h : shiftsFor c = some sh) (x : Int64) :
    shiftAdd x sh = x * c := by
  dsimp only [shiftsFor] at h
  split_ifs at h
  obtain rfl := Option.some.inj h
  exact shiftAdd_setBits x c

/-- Ten is `2 ^ 1 + 2 ^ 3`. -/
example : shiftsFor 10 = some [1, 3] := by decide

/-- Eleven is `2 ^ 0 + 2 ^ 1 + 2 ^ 3`; fifteen has four set bits and is not reduced. -/
example : shiftsFor 11 = some [0, 1, 3] ∧ shiftsFor 15 = none := by decide

/-! ## Which literal the shifts are made for -/

/-- A node where a multiplication by the shifts `sh` is selected, and the
literal whose set bits `sh` lists. -/
inductive ShiftSite (sh : List Nat) : Node → Prop
  /-- The right operand is a literal: its shifts, whatever the left one is. -/
  | right {p q : Pos} {x : Expr} {c : Int64} :
      shiftsFor c = some sh → ShiftSite sh (.expr (.binary p .mul x (.int q c)))
  /-- Only the left operand is a literal. -/
  | left {p q : Pos} {c : Int64} {y : Expr} : (∀ q' c', y ≠ .int q' c') →
      shiftsFor c = some sh → ShiftSite sh (.expr (.binary p .mul (.int q c) y))
  /-- A compound multiplication by a literal. -/
  | compound {p q : Pos} {n : String} {c : Int64} :
      shiftsFor c = some sh → ShiftSite sh (.stmt (.compound p n .mul (.int q c)))

/-- Every strength reduction the selector records is made at a node of the
scan, for the literal `ShiftSite` names. -/
theorem shiftScan_sites {nodes : List (Nat × Node)} {i : Nat} {sh : List Nat}
    (h : (i, sh) ∈ shiftScan nodes) : ∃ n, (i, n) ∈ nodes ∧ ShiftSite sh n := by
  obtain ⟨⟨j, n⟩, hmem, hf⟩ := List.mem_filterMap.mp h
  -- each accepted case yields `(j, sh')` with `shiftsFor c = some sh'`
  have hpick : ∀ {c : Int64}, Option.map (j, ·) (shiftsFor c) = some (i, sh) →
      j = i ∧ shiftsFor c = some sh := by
    intro c hc
    obtain ⟨sh', hsh', hpair⟩ := Option.map_eq_some_iff.mp hc
    obtain ⟨rfl, rfl⟩ := Prod.mk.inj hpair
    exact ⟨rfl, hsh'⟩
  refine ⟨n, ?_⟩
  simp only at hf
  -- the cases of the scan's own match
  split at hf
  · split at hf
    · -- a literal on the right
      obtain ⟨rfl, hc⟩ := hpick hf
      exact ⟨hmem, .right hc⟩
    · -- a literal on the left only
      rename_i hy
      obtain ⟨rfl, hc⟩ := hpick hf
      exact ⟨hmem, .left hy hc⟩
    · cases hf
  · obtain ⟨rfl, hc⟩ := hpick hf
    exact ⟨hmem, .compound hc⟩
  · cases hf

/-- A scanned node is the node at its index. -/
theorem getElem?_of_mem_indexed {nodes : Array Node} {b i : Nat} {n : Node}
    (h : (i, n) ∈ (List.range (nodes.size - b)).map fun k => (b + k, nodes[b + k]!)) :
    nodes[i]? = some n := by
  obtain ⟨k, hk, he⟩ := List.mem_map.mp h
  obtain ⟨rfl, rfl⟩ := Prod.mk.inj he
  have hlt : b + k < nodes.size := by
    have := List.mem_range.mp hk
    omega
  rw [getElem!_pos nodes (b + k) hlt, Array.getElem?_eq_getElem hlt]

/-- A plan is made for the loop it was chosen for. -/
theorem Selection.choose_loop (o : PlanOptions) (l : Loop) (shape : Shape) (tier : Tier)
    (access : Access) : (Selection.choose o l shape tier access).loop = l.key := by
  unfold Selection.choose
  dsimp only
  rw [Loop.foldl_indexedBody]
  cases vectorize l shape l.indexedBody <;>
    simp [apply_ite Selection.loop, Selection.unrolling, Selection.vectorizing]

/-- The shifts of a plan are those the strength scan found, or none: later
strategies keep them. -/
theorem Selection.choose_shiftAdd_mem {o : PlanOptions} {l : Loop} {shape : Shape} {tier : Tier}
    {access : Access} {p : Nat × List Nat} (hp : p ∈ (Selection.choose o l shape tier access).shiftAdd) :
    ∃ n, l.nodes[p.1]? = some n ∧ ShiftSite p.2 n := by
  unfold Selection.choose at hp
  dsimp only at hp
  rw [Loop.foldl_indexedBody] at hp
  cases hres : vectorize l shape l.indexedBody <;>
    simp only [hres, apply_ite Selection.shiftAdd, Selection.record_shiftAdd, Selection.unrolling,
      Selection.vectorizing, ite_self, List.mem_ite_nil_right] at hp
  -- whatever the vectorizer found, the shifts are those the scan found
  all_goals
    obtain ⟨n, hn, hsite⟩ := shiftScan_sites hp.2
    exact ⟨n, by simpa using getElem?_of_mem_indexed hn, hsite⟩

/-- Every strength reduction of a loop's plan is made for a node of that
loop that multiplies by a literal whose set bits are the shifts: the right
operand when it is a literal, else the left one (`ShiftSite`). -/
theorem Selection.choose_shiftsAt {o : PlanOptions} {l : Loop} {shape : Shape} {tier : Tier}
    {access : Access} {key i : Nat} {sh : List Nat}
    (h : (Selection.choose o l shape tier access).shiftsAt? key i = some sh) :
    key = l.key ∧ ∃ n, l.nodes[i]? = some n ∧ ShiftSite sh n := by
  unfold Selection.shiftsAt? at h
  split_ifs at h with hkey
  obtain ⟨⟨j, sh'⟩, hfind, rfl⟩ := Option.map_eq_some_iff.mp h
  have hj : j = i := by simpa using List.find?_some hfind
  subst hj
  exact ⟨hkey.symm.trans (Selection.choose_loop o l shape tier access),
    Selection.choose_shiftAdd_mem (List.mem_of_find?_eq_some hfind)⟩

/-! ## Scaled closures -/

/-- A scaled multiplication whose constant side is the literal its shifts
were made for evaluates like the plain multiplication: the same operands are
evaluated in the same order, an integer operand gives the wrapped product,
and any other operand the error of the plain multiplication. -/
theorem Calc.eval_scaled_mul {c : Int64} {sh : List Nat} (hc : shiftsFor c = some sh)
    (s : Subject) {litLeft : Bool} {x y : Calc}
    (hconst : (if litLeft then x else y) = .const (.int c)) (node : Nat) :
    Calc.eval s (.scaled .mul sh litLeft x y node) = Calc.eval s (.binary .mul x y node) := by
  cases litLeft with
  | false =>
    -- the right side is the literal, the left one is shifted
    simp only [Bool.false_eq_true, if_false] at hconst
    subst hconst
    simp only [Calc.eval, Bool.false_eq_true, if_false, pure_bind]
    refine bind_congr fun a => ?_
    cases a <;> simp [shiftAdd_shiftsFor hc, Value.binary, intBinary, Act.located]
  | true =>
    -- the left side is the literal, the right one is shifted
    simp only [if_true] at hconst
    subst hconst
    simp only [Calc.eval, if_true, pure_bind]
    refine bind_congr fun b => ?_
    cases b <;> simp [shiftAdd_shiftsFor hc, Value.binary, intBinary, Act.located, Int64.mul_comm]

/-- With both operands literals, the shifts are those of the right literal
(`ShiftSite.right`) while the compiler shifts the right operand as if the
left literal were the constant: the closure gives the right literal times
itself, whatever the left literal is. -/
theorem Calc.eval_scaled_literals {a c : Int64} {sh : List Nat} (hc : shiftsFor c = some sh)
    (s : Subject) (node : Nat) :
    Calc.eval s (.scaled .mul sh true (.const (.int a)) (.const (.int c)) node) = pure (.int (c * c)) := by
  simp only [Calc.eval, if_true, pure_bind]
  rw [shiftAdd_shiftsFor hc]

/-- A compound `x *= c` by the shifts of `c` stores what the plain compound
stores, and fails where it fails. -/
theorem Update.exec_compound_scaled {c : Int64} {sh : List Nat} (hc : shiftsFor c = some sh)
    (s : Subject) (i : Nat) (slot : Option Nat) (node : Nat) :
    Update.exec s (.compound i slot node .mul (.const (.int c)) (some sh)) =
      Update.exec s (.compound i slot node .mul (.const (.int c)) none) := by
  simp only [Update.exec, Calc.eval, pure_bind]
  refine bind_congr fun cur => ?_
  cases cur <;> simp [shiftAdd_shiftsFor hc, Value.binary, intBinary, Act.located]

end HotLoop
