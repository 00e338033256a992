import HotLoop.Proofs.Compile.LaneRun
import HotLoop.Proofs.Plan.Reductions
/-!
# HotLoop.Proofs.Compile.Vectorize

Vector lanes are invisible. A counted loop that the planner vectorizes,
with reductions `R`, compiles with lanes for `R` and without them, and the
two compiled loops run alike from every frame: the same result, the same
number of iterations or the same error, and the same final state but for
the scratch space of the lanes (`vector_lanes_invisible`).

This is the compile-time half: the two compiled loops are related as
`Entry.Laned` asks, and `Entry.Laned.run_eq` does the rest.

* An expression over names of the shape and without calls compiles, and the
  slots its code reads are slots of its variables (`Compiler.exprNoHoist_ok`);
  the reductions of a plan change no compiled expression
  (`Compiler.expr_withReductions`).
* Each statement compiles under both plans to code related as `LaneCode`
  asks (`Loop.stmt_laned`), from what the planner guarantees of the
  accumulators, and so does the whole loop (`Loop.compileEntry_laned`).
-/

namespace HotLoop

/-! ## Compiling expressions -/

/-- Every slot of `ts` is the slot of a name of `ns`. -/
def Shape.SlotsOf (s : Shape) (ns : List String) (ts : List Nat) : Prop :=
  ∀ t ∈ ts, ∃ a ∈ ns, s.slotOf? a = some t

theorem Shape.SlotsOf.append {s : Shape} {ns ns' : List String} {ts ts' : List Nat}
    (h : s.SlotsOf ns ts) (h' : s.SlotsOf ns' ts') : s.SlotsOf (ns ++ ns') (ts ++ ts') := by
  intro t ht
  rcases List.mem_append.mp ht with ht | ht
  · obtain ⟨a, ha, hs⟩ := h t ht
    exact ⟨a, List.mem_append_left _ ha, hs⟩
  · obtain ⟨a, ha, hs⟩ := h' t ht
    exact ⟨a, List.mem_append_right _ ha, hs⟩

/-- A name of the shape compiles to its index and slot. -/
theorem Compiler.slotOf_of_mem {c : Compiler} {n : String} (hn : n ∈ c.shape.names.toList) :
    ∃ k, c.slotOf n = .ok (k, c.shape.slot k) ∧ promoted (c.shape.slot k) = c.shape.slotOf? n := by
  have hk : c.shape.index? n = some (c.shape.names.toList.idxOf n) := by
    rw [Shape.index?, Array.idxOf?_eq_toList, List.idxOf?_of_mem hn]
  exact ⟨_, by rw [Compiler.slotOf, hk], (Shape.slotOf?_of_index? hk).symm⟩

/-- What holds of every compiled expression without hoisting holds with it,
if it holds of hoisted values. -/
theorem Compiler.expr_of_noHoist {c : Compiler} {o : Origin} {i : Nat} {e : Expr} {P : Calc → Prop}
    (hh : ∀ k, P (.hoisted k)) (h : ∃ ce, c.exprNoHoist o i e = .ok ce ∧ P ce) :
    ∃ ce, c.expr o i e = .ok ce ∧ P ce := by
  rw [Compiler.expr_eq]
  split
  · exact ⟨_, rfl, hh _⟩
  · exact h

section Compile

variable (c : Compiler) (o : Origin)

mutual
/-- An expression over names of the shape and without calls compiles, and
its code reads only slots of its variables. -/
theorem Compiler.exprNoHoist_ok : (i : Nat) → (e : Expr) → e.vars ⊆ c.shape.names.toList →
    e.nodes.any Node.isCall = false →
    ∃ ce, c.exprNoHoist o i e = .ok ce ∧ c.shape.SlotsOf e.vars ce.slots
  | _, .int _ n, _, _ => ⟨.const (.int n), Compiler.exprNoHoist_int c o _ _ n, fun _ h => nomatch h⟩
  | _, .float _ x, _, _ => ⟨.const (.float x), Compiler.exprNoHoist_float c o _ _ x, fun _ h => nomatch h⟩
  | _, .bool _ b, _, _ => ⟨.const (.bool b), Compiler.exprNoHoist_bool c o _ _ b, fun _ h => nomatch h⟩
  | i, .array _ es, hv, hc => by
    simp only [Expr.nodes, List.any_cons, Node.isCall, Bool.false_or] at hc
    obtain ⟨ces, hes, hs⟩ := Compiler.exprs_ok (i + 1) es hv hc
    refine ⟨.array ces, ?_, hs⟩
    rw [Compiler.exprNoHoist_array, hes]
    rfl
  | i, .ident _ n, hv, _ => by
    obtain ⟨k, hk, hs⟩ := Compiler.slotOf_of_mem (hv (List.mem_singleton_self n))
    refine ⟨_, by rw [Compiler.exprNoHoist_ident, hk]; rfl, fun t ht => ⟨n, List.mem_singleton_self n, ?_⟩⟩
    simp only [Calc.slots, hs, Option.mem_toList] at ht
    exact ht
  | i, .binary _ op x y, hv, hc => by
    simp only [Expr.nodes, List.any_cons, List.any_append, Node.isCall, Bool.false_or,
      Bool.or_eq_false_iff] at hc
    obtain ⟨cx, hx, hsx⟩ := Compiler.expr_of_noHoist (fun _ _ h => nomatch h)
      (Compiler.exprNoHoist_ok (i + 1) x (fun a ha => hv (List.mem_append_left _ ha)) hc.1)
    obtain ⟨cy, hy, hsy⟩ := Compiler.expr_of_noHoist (fun _ _ h => nomatch h)
      (Compiler.exprNoHoist_ok (i + 1 + x.size) y (fun a ha => hv (List.mem_append_right _ ha)) hc.2)
    -- whichever form the operator takes, it reads both operands
    have hs := hsx.append hsy
    rw [Compiler.exprNoHoist_binary, hx, hy]
    dsimp only [bind, Except.bind]
    split
    · exact ⟨_, rfl, hs⟩
    · split <;> exact ⟨_, rfl, hs⟩
  | i, .unary _ op x, hv, hc => by
    simp only [Expr.nodes, List.any_cons, Node.isCall, Bool.false_or] at hc
    obtain ⟨cx, hx, hsx⟩ := Compiler.expr_of_noHoist (fun _ _ h => nomatch h)
      (Compiler.exprNoHoist_ok (i + 1) x hv hc)
    refine ⟨.unary op cx (o.node i), ?_, hsx⟩
    rw [Compiler.exprNoHoist_unary, hx]
    rfl
  | i, .index _ x y, hv, hc => by
    simp only [Expr.nodes, List.any_cons, List.any_append, Node.isCall, Bool.false_or,
      Bool.or_eq_false_iff] at hc
    obtain ⟨cx, hx, hsx⟩ := Compiler.expr_of_noHoist (fun _ _ h => nomatch h)
      (Compiler.exprNoHoist_ok (i + 1) x (fun a ha => hv (List.mem_append_left _ ha)) hc.1)
    obtain ⟨cy, hy, hsy⟩ := Compiler.expr_of_noHoist (fun _ _ h => nomatch h)
      (Compiler.exprNoHoist_ok (i + 1 + x.size) y (fun a ha => hv (List.mem_append_right _ ha)) hc.2)
    refine ⟨.index cx cy (o.node i), ?_, hsx.append hsy⟩
    rw [Compiler.exprNoHoist_index, hx, hy]
    rfl
  | _, .call .., _, hc => by simp [Expr.nodes, Node.isCall] at hc

/-- `Compiler.exprNoHoist_ok` for expressions laid out one after the other. -/
theorem Compiler.exprs_ok : (i : Nat) → (es : List Expr) → Expr.varsOf es ⊆ c.shape.names.toList →
    (Expr.nodesOf es).any Node.isCall = false →
    ∃ ces, c.exprs o i es = .ok ces ∧ c.shape.SlotsOf (Expr.varsOf es) (Calc.slotsAll ces)
  | _, [], _, _ => ⟨[], by rw [Compiler.exprs], fun _ h => nomatch h⟩
  | i, e :: es, hv, hc => by
    simp only [Expr.nodesOf, List.any_append, Bool.or_eq_false_iff] at hc
    obtain ⟨ce, he, hs⟩ := Compiler.expr_of_noHoist (fun _ _ h => nomatch h)
      (Compiler.exprNoHoist_ok i e (fun a ha => hv (List.mem_append_left _ ha)) hc.1)
    obtain ⟨ces, hes, hss⟩ :=
      Compiler.exprs_ok (i + e.size) es (fun a ha => hv (List.mem_append_right _ ha)) hc.2
    refine ⟨ce :: ces, ?_, hs.append hss⟩
    rw [Compiler.exprs_cons, he, hes]
    rfl
end

end Compile

/-- `Compiler.exprNoHoist_ok` with the reads of hoisted values. -/
theorem Compiler.expr_ok (c : Compiler) (o : Origin) (i : Nat) {e : Expr}
    (hv : e.vars ⊆ c.shape.names.toList) (hc : e.nodes.any Node.isCall = false) :
    ∃ ce, c.expr o i e = .ok ce ∧ c.shape.SlotsOf e.vars ce.slots :=
  Compiler.expr_of_noHoist (fun _ _ h => nomatch h) (c.exprNoHoist_ok o i e hv hc)

/-! ## The reductions of a plan change only reduction statements -/

/-- Compiler `c` with reductions `R` in its plan. -/
def Compiler.withReductions (c : Compiler) (R : List Reduction) : Compiler :=
  { c with sel := { c.sel with reductions := R } }

@[simp] theorem Compiler.withReductions_shape (c : Compiler) (R : List Reduction) :
    (c.withReductions R).shape = c.shape := rfl

theorem Compiler.expr_withReductions_of {c : Compiler} {R : List Reduction} {o : Origin} {i : Nat}
    {e : Expr} (h : (c.withReductions R).exprNoHoist o i e = c.exprNoHoist o i e) :
    (c.withReductions R).expr o i e = c.expr o i e := by
  rw [Compiler.expr_eq, Compiler.expr_eq, h]
  rfl

section Reductions

variable (c : Compiler) (R : List Reduction) (o : Origin)

mutual
theorem Compiler.exprNoHoist_withReductions : (i : Nat) → (e : Expr) →
    (c.withReductions R).exprNoHoist o i e = c.exprNoHoist o i e
  | _, .int .. | _, .float .. | _, .bool .. | _, .ident .. | _, .call .. => rfl
  | i, .array _ es => by
    rw [Compiler.exprNoHoist_array, Compiler.exprNoHoist_array, Compiler.exprs_withReductions (i + 1) es]
  | i, .binary _ _ x y => by
    rw [Compiler.exprNoHoist_binary, Compiler.exprNoHoist_binary,
      Compiler.expr_withReductions_of (Compiler.exprNoHoist_withReductions (i + 1) x),
      Compiler.expr_withReductions_of (Compiler.exprNoHoist_withReductions (i + 1 + x.size) y)]
    -- the plan's shifts are read from the same selection
    rfl
  | i, .index _ x y => by
    rw [Compiler.exprNoHoist_index, Compiler.exprNoHoist_index,
      Compiler.expr_withReductions_of (Compiler.exprNoHoist_withReductions (i + 1) x),
      Compiler.expr_withReductions_of (Compiler.exprNoHoist_withReductions (i + 1 + x.size) y)]
  | i, .unary _ _ x => by
    rw [Compiler.exprNoHoist_unary, Compiler.exprNoHoist_unary,
      Compiler.expr_withReductions_of (Compiler.exprNoHoist_withReductions (i + 1) x)]

theorem Compiler.exprs_withReductions : (i : Nat) → (es : List Expr) →
    (c.withReductions R).exprs o i es = c.exprs o i es
  | _, [] => rfl
  | i, e :: es => by
    rw [Compiler.exprs_cons, Compiler.exprs_cons,
      Compiler.expr_withReductions_of (Compiler.exprNoHoist_withReductions i e),
      Compiler.exprs_withReductions (i + e.size) es]
end

/-- Expressions compile the same whatever the reductions of the plan. -/
theorem Compiler.expr_withReductions (i : Nat) (e : Expr) :
    (c.withReductions R).expr o i e = c.expr o i e :=
  Compiler.expr_withReductions_of (Compiler.exprNoHoist_withReductions c R o i e)

/-- So do the sequential updates of statements. -/
theorem Compiler.sequential_withReductions (i : Nat) (s : Stmt) :
    (c.withReductions R).sequential i s = c.sequential i s := by
  cases s <;> unfold Compiler.sequential <;> simp only [Compiler.expr_withReductions] <;> rfl

end Reductions

/-! ## Compiling the statements of a vectorized body -/

/-- The compiler of loop `l` under the plan that sets only the lane width `w`. -/
def Loop.plainCompiler (l : Loop) (w : Nat) : Compiler :=
  ⟨l.shape, { loop := l.key, width := w }, l.key⟩

@[simp] theorem Loop.plainCompiler_shape (l : Loop) (w : Nat) : (l.plainCompiler w).shape = l.shape := rfl

@[simp] theorem Loop.plain_hoistIndex? (l : Loop) (w k i : Nat) :
    (l.plainCompiler w).sel.hoistIndex? k i = none := by
  unfold Selection.hoistIndex?
  split <;> rfl

@[simp] theorem Loop.plain_shiftsAt? (l : Loop) (w k i : Nat) :
    (l.plainCompiler w).sel.shiftsAt? k i = none := by
  unfold Selection.shiftsAt?
  split <;> rfl

@[simp] theorem Loop.plain_reductionAt? (l : Loop) (w k i : Nat) :
    (l.plainCompiler w).sel.reductionAt? k i = none := by
  unfold Selection.reductionAt?
  split <;> rfl

theorem Shape.SlotsOf.single {s : Shape} {n : String} {t : Nat} (h : s.slotOf? n = some t) :
    s.SlotsOf [n] [t] := by
  intro t' ht'
  obtain rfl := List.mem_singleton.mp ht'
  exact ⟨n, List.mem_singleton_self n, h⟩

theorem Compiler.slotOf_of_index? {c : Compiler} {n : String} {k : Nat} (hk : c.shape.index? n = some k) :
    c.slotOf n = .ok (k, c.shape.slot k) := by
  rw [Compiler.slotOf, hk]

section Plain

variable {c : Compiler} (hh : ∀ i, c.sel.hoistIndex? c.key i = none)
include hh

theorem Compiler.expr_own (i : Nat) (e : Expr) : c.expr c.own i e = c.exprNoHoist c.own i e := by
  rw [Compiler.expr_eq, show c.sel.hoistIndex? c.own.key i = none from hh i]

/-- A variable compiles to a read of its slot, reporting its own node. -/
theorem Compiler.expr_ident {n : String} {k : Nat} (hk : c.shape.index? n = some k) (i : Nat) (q : Pos) :
    c.expr c.own i (.ident q n) = .ok (.var k (promoted (c.shape.slot k)) i) := by
  rw [Compiler.expr_own hh]
  rw [Compiler.exprNoHoist_ident, Compiler.slotOf_of_index? hk]
  rfl

/-- An arithmetic operator without shifts compiles to a binary node over its
compiled operands. -/
theorem Compiler.expr_binary (hsh : ∀ i, c.sel.shiftsAt? c.key i = none) {op : Op}
    (hop : op = .add ∨ op = .mul) {i : Nat} {x y : Expr} {cx cy : Calc}
    (hx : c.expr c.own (i + 1) x = .ok cx) (hy : c.expr c.own (i + 1 + x.size) y = .ok cy) (p : Pos) :
    c.expr c.own i (.binary p op x y) = .ok (.binary op cx cy i) := by
  rw [Compiler.expr_own hh]
  rw [Compiler.exprNoHoist_binary, hx, hy]
  dsimp only [bind, Except.bind]
  have hlogic : ¬ (op = .and ∨ op = .or) := by rcases hop with rfl | rfl <;> simp
  rw [if_neg hlogic, show c.sel.shiftsAt? c.own.key i = none from hsh i]
  rfl

/-- The sequential update of a reduction statement folds the compiled
contribution into the accumulator's slot. -/
theorem Compiler.sequential_folds (hsh : ∀ i, c.sel.shiftsAt? c.key i = none) {i : Nat} {n : String}
    {st : Stmt} {r : Reduction} (hred : st.Reduces i n r) (hop : r.op = .add ∨ r.op = .mul) {k : Nat}
    (hk : c.shape.index? n = some k) {t : Nat} (ht : promoted (c.shape.slot k) = some t) {cc : Calc}
    (hcc : c.expr c.own r.contribution r.contrib = .ok cc) :
    ∃ seq, c.sequential i st = .ok seq ∧ seq.Folds t r.op cc r.updateNode r.accLeft := by
  cases hred with
  | compound p op v k' =>
    refine ⟨.compound k (some t) i op cc none, ?_, .compound k⟩
    simp only [Compiler.sequential]
    rw [Compiler.slotOf_of_index? hk]
    dsimp only [bind, Except.bind]
    rw [hcc, ht, show c.sel.shiftsAt? c.key i = none from hsh i]
    rfl
  | left p p' q op y k' =>
    have hx := Compiler.expr_ident hh hk (i + 1 + 1) q
    have hy : c.expr c.own (i + 1 + 1 + (Expr.ident q n).size) y = .ok cc := hcc
    refine ⟨.store k (some t) i (.binary op (.var k (some t) (i + 1 + 1)) cc (i + 1)), ?_, .left k _ i⟩
    simp only [Compiler.sequential]
    rw [Compiler.expr_binary hh hsh hop hx hy, Compiler.slotOf_of_index? hk]
    dsimp only [bind, Except.bind]
    rw [ht]
    rfl
  | right p p' q op x k' =>
    have hx : c.expr c.own (i + 1 + 1) x = .ok cc := hcc
    have hy := Compiler.expr_ident hh hk (i + 1 + 1 + x.size) q
    refine ⟨.store k (some t) i (.binary op cc (.var k (some t) (i + 1 + 1 + x.size)) (i + 1)), ?_,
      .right k _ i⟩
    simp only [Compiler.sequential]
    rw [Compiler.expr_binary hh hsh hop hx hy, Compiler.slotOf_of_index? hk]
    dsimp only [bind, Except.bind]
    rw [ht]
    rfl

end Plain

theorem Compiler.stmt_withReductions_declare (c : Compiler) (R : List Reduction) (i : Nat) (q : Pos)
    (n : String) (v : Expr) : (c.withReductions R).stmt i (.declare q n v) = c.stmt i (.declare q n v) := by
  simp only [Compiler.stmt, Compiler.expr_withReductions]
  rfl

theorem Stmt.Reduces.update {i : Nat} {n : String} {st : Stmt} {r : Reduction} (h : st.Reduces i n r) :
    (∃ q n v, st = .assign q n v) ∨ (∃ q n op v, st = .compound q n op v) := by
  cases h with
  | compound p op v k => exact .inr ⟨p, n, op, v, rfl⟩
  | left p p' q op y k => exact .inl ⟨p, n, _, rfl⟩
  | right p p' q op x k => exact .inl ⟨p, n, _, rfl⟩

section Updates

variable {c : Compiler} {i : Nat} {st : Stmt}
  (hst : (∃ q n v, st = .assign q n v) ∨ (∃ q n op v, st = .compound q n op v))
include hst

/-- An update the plan marks as reduction `j` compiles as that reduction. -/
theorem Compiler.stmt_of_reductionAt {j : Nat} (hj : c.sel.reductionAt? c.key i = some j) :
    c.stmt i st = c.reduction j i st := by
  rcases hst with ⟨q, n, v, rfl⟩ | ⟨q, n, op, v, rfl⟩ <;> simp only [Compiler.stmt, hj]

/-- Any other update compiles as its sequential assignment. -/
theorem Compiler.stmt_of_no_reductionAt (hj : c.sel.reductionAt? c.key i = none) :
    c.stmt i st = .update <$> c.sequential i st := by
  rcases hst with ⟨q, n, v, rfl⟩ | ⟨q, n, op, v, rfl⟩ <;> simp only [Compiler.stmt, hj]

end Updates

/-- Reduction `j` of the plan compiles to a reduce node around the
statement's sequential update. -/
theorem Compiler.reduction_eq {c : Compiler} {j i : Nat} {s : Stmt} {red : Reduction}
    (hj : c.sel.reductions[j]? = some red) {k : Nat} {sl : Int}
    (hsl : c.slotOf (c.shape.names[red.index]!) = .ok (k, sl)) {cc : Calc}
    (hcc : c.expr c.own red.contribution red.contrib = .ok cc) {seq : Update}
    (hseq : c.sequential i s = .ok seq) :
    c.reduction j i s = .ok (.reduce j sl.toNat red.op cc red.updateNode red.accLeft seq) := by
  unfold Compiler.reduction
  simp only [hj, hsl, hcc, hseq, bind, Except.bind]
  rfl

/-- The plan with reductions `R` finds a statement's reduction by its number. -/
theorem Loop.vector_reductionAt? (l : Loop) (w : Nat) (R : List Reduction) (i : Nat) :
    ((l.plainCompiler w).withReductions R).sel.reductionAt? l.key i = R.findIdx? (·.stmt == i) := by
  unfold Selection.reductionAt?
  exact if_pos rfl

/-- A write `n = v` or `let n = v` of the body compiles its value, and the
slots it reads and writes are slots of names it touches. -/
theorem Loop.write_compiles {l : Loop} {st : Stmt} (hs : st ∈ l.body) (hcall : hasCall l.body = false)
    {n : String} {v : Expr} (hn : st.assignedName? = some n) (hvars : st.vars = n :: v.vars)
    (hnodes : st.nodes = .stmt st :: v.nodes) (w i : Nat) :
    ∃ k t cv, l.shape.index? n = some k ∧ Compiler.promoted (l.shape.slot k) = some t ∧
      (l.plainCompiler w).expr (l.plainCompiler w).own i v = .ok cv ∧
      (∀ a ∈ n :: v.vars, st.touches a = true) ∧ l.shape.SlotsOf (n :: v.vars) (t :: cv.slots) := by
  have hsub := Loop.vars_body hs
  rw [hvars] at hsub
  have hnc := Stmt.noCall_of_mem hcall hs
  rw [hnodes] at hnc
  simp only [List.any_cons, Node.isCall, Bool.false_or] at hnc
  obtain ⟨cv, hcv, hsv⟩ := (l.plainCompiler w).expr_ok (l.plainCompiler w).own i
    (fun a ha => hsub (List.mem_cons_of_mem _ ha)) hnc
  obtain ⟨t, ht⟩ := Loop.slotOf?_of_assigned hs hn
  have hk : l.shape.index? n = some (l.shape.names.toList.idxOf n) := by
    rw [Shape.index?, Array.idxOf?_eq_toList, List.idxOf?_of_mem (hsub List.mem_cons_self)]
  refine ⟨_, t, cv, hk, (Shape.slot_of_slotOf? hk ht).1, hcv, ?_,
    (Shape.SlotsOf.single ht).append hsv⟩
  intro a ha
  rcases List.mem_cons.mp ha with rfl | ha
  · exact Stmt.touches_of_assigned hn
  · exact Stmt.touches_of_vars (fun x hx => by rw [hnodes]; exact List.mem_cons_of_mem _ hx) ha

section Body

variable {l : Loop} {R : List Reduction} (hv : vectorize l l.shape l.indexedBody = some R) (w : Nat)
include hv

/-- A slot that a statement without reduction touches has no lane. -/
theorem Loop.not_lane_of_write {i : Nat} {st : Stmt} (hp : (i, st) ∈ l.indexedBody)
    (hnone : reductionOf l.shape i st = none) {ns : List String} (hts : ∀ a ∈ ns, st.touches a = true)
    {ts : List Nat} (h : l.shape.SlotsOf ns ts) : ∀ t ∈ ts, t ∉ (l.shape.lanes R).map Prod.fst := by
  intro t ht hl
  obtain ⟨a, ha, hs⟩ := h t ht
  obtain ⟨r, -, hr, -⟩ := Loop.touched_lane hv hp (hts a ha) hs hl
  rw [hnone] at hr
  cases hr

/-- No reduction of the plan is numbered like a statement without one. -/
theorem Loop.findIdx?_write {i : Nat} {st : Stmt} (hp : (i, st) ∈ l.indexedBody)
    (hnone : reductionOf l.shape i st = none) : R.findIdx? (·.stmt == i) = none := by
  rw [List.findIdx?_eq_none_iff]
  intro r hr
  cases hi : (r.stmt == i)
  · rfl
  · rw [Loop.reductionOf_of_stmt hv hp hr (by simpa using hi)] at hnone
    cases hnone

/-- A reduction statement finds its reduction at its place in the plan. -/
theorem Loop.findIdx?_reduce {i : Nat} {st : Stmt} (hp : (i, st) ∈ l.indexedBody) {r : Reduction}
    (hr : reductionOf l.shape i st = some r) : ∃ j, R.findIdx? (·.stmt == i) = some j ∧ R[j]? = some r := by
  obtain ⟨-, -, -, hR, -, -⟩ := vectorize_eq_some hv
  have hrR : r ∈ R := hR ▸ List.mem_filterMap.mpr ⟨(i, st), hp, hr⟩
  obtain ⟨j, hj⟩ : ∃ j, R.findIdx? (·.stmt == i) = some j := by
    refine Option.isSome_iff_exists.mp ?_
    rw [List.findIdx?_isSome, List.any_eq_true]
    exact ⟨r, hrR, by simp [reductionOf_stmt hr]⟩
  obtain ⟨hjlt, hji, -⟩ := List.findIdx?_eq_some_iff_getElem.mp hj
  -- the reduction found there is made by this statement, so it is `r`
  have hof := Loop.reductionOf_of_stmt hv hp (List.getElem_mem hjlt) (by simpa using hji)
  rw [hr] at hof
  exact ⟨j, hj, by rw [List.getElem?_eq_getElem hjlt, hof]⟩

/-- The contribution of a reduction reads no lane: not its own accumulator,
which it does not read, and no other, which its statement does not touch. -/
theorem Loop.contrib_not_lane {i : Nat} {st : Stmt} (hp : (i, st) ∈ l.indexedBody) {r : Reduction}
    (hr : reductionOf l.shape i st = some r) {cc : Calc} (hs : l.shape.SlotsOf r.contrib.vars cc.slots) :
    ∀ t ∈ cc.slots, t ∉ (l.shape.lanes R).map Prod.fst := by
  obtain ⟨n, hidx, -, -, hreads, hred⟩ := reductionOf_eq_some hr
  intro t ht hl
  obtain ⟨a, ha, has⟩ := hs t ht
  obtain ⟨r', -, hr', rfl⟩ := Loop.touched_lane hv hp (Stmt.touches_of_vars hred.contrib_nodes ha) has hl
  obtain rfl : r' = r := Option.some.inj (hr'.symm.trans hr)
  rw [Shape.names_getElem!_of_index? hidx] at ha
  exact Expr.not_mem_vars hreads ha

/-- A write of a temporary compiles to the same code under both plans, code
that touches no lane. -/
theorem Loop.stmt_write {i : Nat} {st : Stmt} (hp : (i, st) ∈ l.indexedBody)
    (hnone : reductionOf l.shape i st = none) :
    ∃ cP, ((l.plainCompiler w).withReductions R).stmt i st = .ok cP ∧
      (l.plainCompiler w).stmt i st = .ok cP ∧ LaneCode (l.shape.lanes R) cP cP := by
  obtain ⟨hcall, -, -, -, hwrites, -⟩ := vectorize_eq_some hv
  have hs := (Stmt.le_of_mem_indexFrom hp).2
  have hat : ((l.plainCompiler w).withReductions R).sel.reductionAt? l.key i = none :=
    (Loop.vector_reductionAt? l w R i).trans (Loop.findIdx?_write hv hp hnone)
  rcases hwrites (i, st) hp hnone with ⟨q, n, v, rfl⟩ | ⟨q, n, v, rfl⟩
  · -- `let n = v`
    obtain ⟨k, t, cv, hk, ht, hcv, hts, hsl⟩ := Loop.write_compiles hs hcall rfl rfl rfl w (i + 1)
    obtain ⟨-, rfl⟩ := Compiler.promoted_eq_some ht
    have hcP : (l.plainCompiler w).stmt i (.declare q n v) = .ok (.put (l.shape.slot k).toNat cv) := by
      simp only [Compiler.stmt]
      rw [hcv, Compiler.slotOf_of_index? (c := l.plainCompiler w) hk]
      rfl
    refine ⟨_, ?_, hcP, .put (Loop.not_lane_of_write hv hp hnone hts hsl)⟩
    rw [Compiler.stmt_withReductions_declare, hcP]
  · -- `n = v`
    obtain ⟨k, t, cv, hk, ht, hcv, hts, hsl⟩ := Loop.write_compiles hs hcall rfl rfl rfl w (i + 1)
    have hseq : (l.plainCompiler w).sequential i (.assign q n v) = .ok (.store k (some t) i cv) := by
      simp only [Compiler.sequential]
      rw [hcv, Compiler.slotOf_of_index? (c := l.plainCompiler w) hk]
      dsimp only [bind, Except.bind]
      rw [Loop.plainCompiler_shape, ht]
      rfl
    have hupd : (∃ q' n' v', Stmt.assign q n v = .assign q' n' v') ∨
        (∃ q' n' op v', Stmt.assign q n v = .compound q' n' op v') := .inl ⟨q, n, v, rfl⟩
    refine ⟨.update (.store k (some t) i cv), ?_, ?_, .update (Loop.not_lane_of_write hv hp hnone hts hsl)⟩
    · rw [Compiler.stmt_of_no_reductionAt hupd hat, Compiler.sequential_withReductions, hseq]
      rfl
    · rw [Compiler.stmt_of_no_reductionAt hupd (Loop.plain_reductionAt? l w _ i), hseq]
      rfl

/-- A reduction statement compiles to reduction `j` of the plan with lanes
and to its sequential update without, and the two fold the same
contribution, which reads no lane, into the accumulator's lane. -/
theorem Loop.stmt_reduce {i : Nat} {st : Stmt} (hp : (i, st) ∈ l.indexedBody) {r : Reduction}
    (hr : reductionOf l.shape i st = some r) :
    ∃ cV cP, ((l.plainCompiler w).withReductions R).stmt i st = .ok cV ∧
      (l.plainCompiler w).stmt i st = .ok cP ∧ LaneCode (l.shape.lanes R) cV cP := by
  obtain ⟨hcall, -, -, -, -, -⟩ := vectorize_eq_some hv
  obtain ⟨n, hidx, hop, -, -, hred⟩ := reductionOf_eq_some hr
  have hs := (Stmt.le_of_mem_indexFrom hp).2
  -- the accumulator's slot
  obtain ⟨t, ht⟩ := Loop.slotOf?_of_assigned hs hred.assignedName
  obtain ⟨hpt, htn⟩ := Shape.slot_of_slotOf? hidx ht
  obtain ⟨j, hj, hRj⟩ := Loop.findIdx?_reduce hv hp hr
  -- the contribution compiles
  have hsub := Loop.vars_body hs
  have hnc := Stmt.noCall_of_mem hcall hs
  obtain ⟨cc, hcc, hscc⟩ := (l.plainCompiler w).expr_ok (l.plainCompiler w).own r.contribution
    (fun a ha => hsub (hred.contrib_vars ha))
    (List.any_eq_false.mpr fun x hx => List.any_eq_false.mp hnc x (hred.contrib_nodes hx))
  obtain ⟨seq, hseq, hfold⟩ := Compiler.sequential_folds (c := l.plainCompiler w)
    (fun _ => Loop.plain_hoistIndex? l w _ _) (fun _ => Loop.plain_shiftsAt? l w _ _) hred hop hidx hpt hcc
  refine ⟨.reduce j t r.op cc r.updateNode r.accLeft seq, .update seq, ?_, ?_,
    .reduce ?_ (Loop.contrib_not_lane hv hp hr hscc) hfold⟩
  · rw [Compiler.stmt_of_reductionAt hred.update ((Loop.vector_reductionAt? l w R i).trans hj), ← htn]
    refine Compiler.reduction_eq (k := r.index) hRj ?_ ((Compiler.expr_withReductions _ R _ _ _).trans hcc)
      ((Compiler.sequential_withReductions _ R i st).trans hseq)
    rw [Compiler.withReductions_shape, Loop.plainCompiler_shape, Shape.names_getElem!_of_index? hidx]
    exact Compiler.slotOf_of_index? hidx
  · rw [Compiler.stmt_of_no_reductionAt hred.update (Loop.plain_reductionAt? l w _ i), hseq]
    rfl
  · simp only [Shape.lanes, List.getElem?_map, hRj, Option.map_some, htn]

/-- Every statement of the body compiles under both plans, to code related
as `LaneCode` asks. -/
theorem Loop.stmt_laned {i : Nat} {st : Stmt} (hp : (i, st) ∈ l.indexedBody) :
    ∃ cV cP, ((l.plainCompiler w).withReductions R).stmt i st = .ok cV ∧
      (l.plainCompiler w).stmt i st = .ok cP ∧ LaneCode (l.shape.lanes R) cV cP := by
  cases hr : reductionOf l.shape i st with
  | none =>
    obtain ⟨cP, hV, hP, hc⟩ := Loop.stmt_write hv w hp hr
    exact ⟨cP, cP, hV, hP, hc⟩
  | some r => exact Loop.stmt_reduce hv w hp hr

end Body

/-! ## Compiling the loop -/

/-- Blocks whose statements compile pairwise as `LaneCode` asks, by `d`
with lanes `L` and by `c` without, compile to lists of code related
statement by statement. -/
theorem Compiler.block_laned {c d : Compiler} {L : List (Nat × Op)} :
    ∀ (i : Nat) (ss : List Stmt), (∀ p ∈ Stmt.indexFrom i ss,
      ∃ cV cP, d.stmt p.1 p.2 = .ok cV ∧ c.stmt p.1 p.2 = .ok cP ∧ LaneCode L cV cP) →
    ∃ csV csP, d.block i ss = .ok csV ∧ c.block i ss = .ok csP ∧ List.Forall₂ (LaneCode L) csV csP
  | i, [], _ => ⟨[], [], by rw [Compiler.block], by rw [Compiler.block], .nil⟩
  | i, s :: ss, h => by
    obtain ⟨cV, cP, hV, hP, hc⟩ := h (i, s) List.mem_cons_self
    obtain ⟨csV, csP, hsV, hsP, hcs⟩ :=
      Compiler.block_laned (i + s.size) ss fun p hp => h p (List.mem_cons_of_mem _ hp)
    refine ⟨cV :: csV, cP :: csP, ?_, ?_, .cons hc hcs⟩
    · rw [Compiler.block, hV, hsV]
      rfl
    · rw [Compiler.block, hP, hsP]
      rfl

/-- A body without calls and nested loops is supported. -/
theorem Loop.unsupported?_eq_none {l : Loop} (hc : hasCall l.body = false)
    (hn : hasNestedLoop l.body = false) : l.unsupported? = none := by
  have hnest : nestedLoops l.body = [] := by
    unfold nestedLoops
    rw [List.filterMap_eq_nil_iff]
    intro x hx
    have hl := List.any_eq_false.mp hn x hx
    cases x with
    | expr e => rfl
    | stmt s => cases s <;> simp_all [Node.isLoop, Stmt.asLoop?]
  simp [Loop.unsupported?, hc, hnest]

/-- A supported counted loop whose body compiles compiles to the entry that
counts in the slot of its variable. -/
theorem Loop.compileEntry_range {l : Loop} {shape : Shape} {sel : Selection} {v : String} {a b : Expr}
    {st : Option Expr} (hh : l.head = .range v a b st) (hu : l.unsupported? = none) {body : List Code}
    (hb : (⟨shape, sel, l.key⟩ : Compiler).block (1 + (Expr.nodesOf l.head.exprs).length) l.body = .ok body)
    (hhoist : sel.hoisted = []) {k : Nat} {counter : Int}
    (hcnt : (⟨shape, sel, l.key⟩ : Compiler).slotOf v = .ok (k, counter)) :
    l.compileEntry shape sel = .ok
      { hoisted := [], head := .range counter.toNat (max sel.unroll 1),
        lanes := sel.reductions.map fun r => ((shape.slot r.index).toNat, r.op),
        width := sel.width, body := body } := by
  unfold Loop.compileEntry
  simp only [hu, hb, hhoist, List.mapM_nil, bind, Except.bind, pure, Except.pure]
  split
  · rename_i hr
    rw [hh] at hr
    cases hr
    rw [hcnt]
  · rename_i hr
    rw [hh] at hr
    cases hr
  · rename_i hr
    rw [hh] at hr
    cases hr

variable {l : Loop} {R : List Reduction} {w : Nat}

/-- A counted loop that the planner vectorizes compiles under the plan with
its reductions and under the plan without, to entries related as
`Entry.Laned` asks. -/
theorem Loop.compileEntry_laned (hv : vectorize l l.shape l.indexedBody = some R)
    (hc : l.kind = .counted) (hw : 0 < w) :
    ∃ eV e0 counter, l.compileEntry l.shape { loop := l.key, reductions := R, width := w } = .ok eV ∧
      l.compileEntry l.shape { loop := l.key, width := w } = .ok e0 ∧ Entry.Laned eV e0 counter := by
  obtain ⟨hcall, hnest, hne, -, -, -⟩ := vectorize_eq_some hv
  obtain ⟨v, a, b, st, hh⟩ : ∃ v a b st, l.head = .range v a b st := by
    cases hh : l.head with
    | range v a b st => exact ⟨v, a, b, st, rfl⟩
    | cond c => simp [Loop.kind, hh] at hc
    | each v c => simp [Loop.kind, hh] at hc
  have hu := Loop.unsupported?_eq_none hcall hnest
  -- the body, statement by statement
  obtain ⟨csV, csP, hbV, hbP, hbs⟩ := Compiler.block_laned (c := l.plainCompiler w)
    (d := (l.plainCompiler w).withReductions R) (L := l.shape.lanes R) _ l.body
    fun p hp => Loop.stmt_laned hv w hp
  -- the counter: the loop variable, numbered first
  have hcnt := Compiler.slotOf_of_index? (c := l.plainCompiler w) (Loop.index?_var hh).1
  refine ⟨_, _, (l.shape.slot 0).toNat, Loop.compileEntry_range hh hu hbV rfl hcnt,
    Loop.compileEntry_range hh hu hbP rfl hcnt, ?_⟩
  exact {
    hoisted := rfl
    head_eq := rfl
    head := ⟨_, rfl⟩
    width := rfl
    plain := rfl
    lanes := ⟨Loop.lanes_nodup hv, Loop.lanes_ops hv, hw⟩
    nonempty := by simpa [Shape.lanes] using hne
    counter := Loop.counter_not_lane hv hh
    body := hbs }

/-- **Vector lanes are invisible.** A counted loop that the planner
vectorizes, with reductions `R`, compiles with lanes of any positive width
and without them, and from every well-formed frame the two compiled loops
give the same result: the same value or error, the same iterations and the
same final state, slots of the accumulators included, but for the scratch
space of the lanes. -/
theorem vector_lanes_invisible (hv : vectorize l l.shape l.indexedBody = some R)
    (hc : l.kind = .counted) (hw : 0 < w) :
    ∃ eV e0, l.compileEntry l.shape { loop := l.key, reductions := R, width := w } = .ok eV ∧
      l.compileEntry l.shape { loop := l.key, width := w } = .ok e0 ∧
      ∀ (s : Subject) (h : Header) (fuel : Nat) (w0 : Work),
        Env.Stacked (.frame w0.frame :: w0.parent) w0.arena.size →
        withoutLanes (eV.run s h fuel w0) = withoutLanes (e0.run s h fuel w0) := by
  obtain ⟨eV, e0, counter, hV, h0, hl⟩ := Loop.compileEntry_laned hv hc hw
  exact ⟨eV, e0, hV, h0, fun s h fuel w0 hst => hl.run_eq s h fuel hst⟩

/-- The counted loop `for i in 0..4 { s += i }` is vectorized with one
reduction, both plans compile it, and from a frame on the heap its lanes are
invisible. -/
theorem vector_lanes_invisible_sum :
    let l : Loop := ⟨0, ⟨1, 1⟩, .range "i" (.int ⟨1, 1⟩ 0) (.int ⟨1, 1⟩ 4) none,
      [.compound ⟨2, 1⟩ "s" .add (.ident ⟨2, 6⟩ "i")]⟩
    ∃ R, vectorize l l.shape l.indexedBody = some R ∧ l.kind = .counted ∧
      ∃ eV e0, l.compileEntry l.shape { loop := l.key, reductions := R, width := 4 } = .ok eV ∧
        l.compileEntry l.shape { loop := l.key, width := 4 } = .ok e0 ∧
        ∃ w0 : Work, Env.Stacked (.frame w0.frame :: w0.parent) w0.arena.size ∧
          ∀ (s : Subject) (h : Header) (fuel : Nat),
            withoutLanes (eV.run s h fuel w0) = withoutLanes (e0.run s h fuel w0) := by
  intro l
  have hv : vectorize l l.shape l.indexedBody =
      some [⟨1, .add, 3, 4, .ident ⟨2, 6⟩ "i", 3, true, false⟩] := by
    unfold vectorize Loop.roles
    cbv
  -- a frame on the heap with no slots, and nothing around it
  have hs : ∀ n, (default : Frame).slotOf? n = none := by
    intro n
    simp [Frame.slotOf?, Shape.slotOf?, Shape.index?, Array.idxOf?_eq_toList]
    rfl
  have hst : Env.Stacked (.frame (default : Frame) :: []) (Arena.new 64 64).size := by
    refine ⟨⟨?_, ?_, rfl, rfl, rfl⟩, trivial⟩
    · intro n s h
      rw [hs] at h
      cases h
    · intro n n' s h
      rw [hs] at h
      cases h
  obtain ⟨eV, e0, hV, h0, hrun⟩ := vector_lanes_invisible hv rfl (by decide : 0 < 4)
  exact ⟨_, hv, rfl, eV, e0, hV, h0, { frame := default, parent := [], arena := Arena.new 64 64 }, hst,
    fun s h fuel => hrun s h fuel _ hst⟩

end HotLoop
