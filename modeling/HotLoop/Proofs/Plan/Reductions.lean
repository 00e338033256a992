import HotLoop.Compile.Code
import HotLoop.Proofs.Shape.Assigned
import HotLoop.Proofs.Shape.Renaming
/-!
# HotLoop.Proofs.Plan.Reductions

What the planner's vectorization check guarantees about the body of a
counted loop it accepts with reductions `R`.

* The planner hands `vectorize` the body numbered as the compiler numbers
  it (`Selection.choose_reductions`).
* `vectorize` accepts a body of reductions and writes of temporaries, and no
  statement but its own touches an accumulator (`vectorize_eq_some`).
* `reductionOf` recognises three forms of update (`Stmt.Reduces`).
* Every reduction is made by a statement of the body on an accumulator with
  a slot (`Loop.accumulates_of_mem`); accumulators' slots are distinct from
  each other (`Loop.lanes_nodup`) and from the counter
  (`Loop.counter_not_lane`), and a statement that touches one makes its
  reduction (`Loop.touched_lane`).
-/

namespace HotLoop

/-! ## The statements the planner looks at -/

/-- Statements numbered by pre-order index from `i`, one after the other. -/
def Stmt.indexFrom : Nat → List Stmt → List (Nat × Stmt)
  | _, [] => []
  | i, s :: ss => (i, s) :: Stmt.indexFrom (i + s.size) ss

/-- The statements of a loop's body with their pre-order indices. -/
def Loop.indexedBody (l : Loop) : List (Nat × Stmt) :=
  Stmt.indexFrom (1 + (Expr.nodesOf l.head.exprs).length) l.body

/-- The planner numbers the body's statements as `Stmt.indexFrom` does. -/
theorem Stmt.foldl_index (acc : List (Nat × Stmt)) :
    ∀ (ss : List Stmt) (i : Nat),
      (ss.foldl (fun x st => (x.1 ++ [(x.2, st)], x.2 + st.size)) (acc, i)).1 = acc ++ Stmt.indexFrom i ss
  | [], _ => by simp [Stmt.indexFrom]
  | s :: ss, i => by
    rw [List.foldl_cons, Stmt.foldl_index _ ss, Stmt.indexFrom, List.append_assoc, List.singleton_append]

/-- The planner numbers the body as `Loop.indexedBody` does. -/
theorem Loop.foldl_indexedBody (l : Loop) :
    (l.body.foldl (fun x st => (x.1 ++ [(x.2, st)], x.2 + st.size))
      ([], 1 + (Expr.nodesOf l.head.exprs).length)).1 = l.indexedBody := by
  rw [Stmt.foldl_index, List.nil_append]
  rfl

@[simp] theorem Selection.record_reductions {α : Type} (sel : Selection) (st : Strategy) (found : List α)
    (store : Selection → Selection) : (sel.record st found store).reductions = (store sel).reductions := by
  unfold Selection.record
  split <;> rfl

@[simp] theorem Selection.record_shiftAdd {α : Type} (sel : Selection) (st : Strategy)
    (found : List α) (store : Selection → Selection) :
    (sel.record st found store).shiftAdd = (store sel).shiftAdd := by
  unfold Selection.record
  split <;> rfl

@[simp] theorem Selection.record_loop {α : Type} (sel : Selection) (st : Strategy)
    (found : List α) (store : Selection → Selection) :
    (sel.record st found store).loop = (store sel).loop := by
  unfold Selection.record
  split <;> rfl

/-- The plan chosen for a loop reduces nothing, or exactly what `vectorize`
finds in the loop's numbered body. -/
theorem Selection.choose_reductions (o : PlanOptions) (l : Loop) (shape : Shape) (tier : Tier)
    (access : Access) :
    (Selection.choose o l shape tier access).reductions = [] ∨
      vectorize l shape l.indexedBody = some (Selection.choose o l shape tier access).reductions := by
  unfold Selection.choose
  dsimp only
  rw [Loop.foldl_indexedBody]
  -- every other strategy keeps the reductions of the plan it refines
  cases hres : vectorize l shape l.indexedBody with
  | none =>
    left
    simp [apply_ite Selection.reductions, Selection.unrolling]
  | some reds =>
    by_cases hc : (!o.disabled.has Strategy.vectorization) = true ∧ l.kind = LoopKind.counted ∧
        o.vectorWidth > 1 ∧ tier ≤ Tier.moderate ∧ access ≤ Access.sequential
    · right
      simp only [hc, and_self, if_true, apply_ite Selection.reductions, Selection.record_reductions,
        Selection.unrolling, Selection.vectorizing, ite_self]
    · left
      simp only [hc, if_false, apply_ite Selection.reductions, Selection.record_reductions,
        Selection.unrolling, ite_self]

theorem Stmt.size_pos (s : Stmt) : 0 < s.size := by
  unfold Stmt.size
  cases s with
  | ret p v => cases v <;> simp only [Stmt.nodes, List.length_cons] <;> omega
  | _ => simp only [Stmt.nodes, List.length_cons]; omega

theorem Stmt.le_of_mem_indexFrom : ∀ {i : Nat} {ss : List Stmt} {p : Nat × Stmt},
    p ∈ Stmt.indexFrom i ss → i ≤ p.1 ∧ p.2 ∈ ss
  | _, [], _, h => nomatch h
  | i, s :: ss, p, h => by
    rcases List.mem_cons.mp h with rfl | h
    · exact ⟨le_refl _, List.mem_cons_self⟩
    · obtain ⟨hle, hm⟩ := Stmt.le_of_mem_indexFrom h
      exact ⟨by have := s.size_pos; omega, List.mem_cons_of_mem _ hm⟩

/-- Statements are numbered apart. -/
theorem Stmt.eq_of_mem_indexFrom : ∀ {i : Nat} {ss : List Stmt} {p q : Nat × Stmt},
    p ∈ Stmt.indexFrom i ss → q ∈ Stmt.indexFrom i ss → p.1 = q.1 → p = q
  | _, [], _, _, h, _, _ => nomatch h
  | i, s :: ss, p, q, hp, hq, he => by
    have hs := s.size_pos
    rcases List.mem_cons.mp hp with rfl | hp <;> rcases List.mem_cons.mp hq with rfl | hq
    · rfl
    · have := (Stmt.le_of_mem_indexFrom hq).1
      simp only at he
      omega
    · have := (Stmt.le_of_mem_indexFrom hp).1
      simp only at he
      omega
    · exact Stmt.eq_of_mem_indexFrom hp hq he

/-! ## Reductions -/

/-- Statement `st` at index `i` updates the accumulator `n`, numbered `k`,
by reduction `r`: `n op= e`, `n = n op e` or `n = e op n`. -/
inductive Stmt.Reduces (i : Nat) (n : String) : Stmt → Reduction → Prop
  | compound (p : Pos) (op : Op) (v : Expr) (k : Nat) :
    Stmt.Reduces i n (.compound p n op v) ⟨k, op, i, i + 1, v, i, true, false⟩
  | left (p p' q : Pos) (op : Op) (y : Expr) (k : Nat) :
    Stmt.Reduces i n (.assign p n (.binary p' op (.ident q n) y)) ⟨k, op, i, i + 3, y, i + 1, true, true⟩
  | right (p p' q : Pos) (op : Op) (x : Expr) (k : Nat) :
    Stmt.Reduces i n (.assign p n (.binary p' op x (.ident q n))) ⟨k, op, i, i + 2, x, i + 1, false, true⟩

theorem Expr.eq_of_isIdent {e : Expr} {n : String} (h : e.isIdent n = true) : ∃ q, e = .ident q n := by
  cases e with
  | ident q m =>
    simp only [Expr.isIdent, beq_iff_eq] at h
    exact ⟨q, h ▸ rfl⟩
  | _ => simp [Expr.isIdent] at h

/-- The checks `reductionOf` makes once the accumulator is numbered `k`. -/
theorem reductionOf_checks {shape : Shape} {i k : Nat} {n : String} {op : Op} {contrib : Expr}
    {ci node : Nat} {accLeft assigns : Bool} {r : Reduction} (hop : ¬ (op ≠ .add ∧ op ≠ .mul))
    (h : (if (k : Int) = shape.counter ∨ shape.declared[k]! = true ∨ contrib.reads n = true then none
      else some ⟨k, op, i, ci, contrib, node, accLeft, assigns⟩) = some r) :
    (op = .add ∨ op = .mul) ∧ (k : Int) ≠ shape.counter ∧ contrib.reads n = false ∧
      r = ⟨k, op, i, ci, contrib, node, accLeft, assigns⟩ := by
  split at h
  · cases h
  · rename_i hc
    cases h
    refine ⟨?_, fun he => hc (.inl he), by simpa using fun h' => hc (.inr (.inr h')), rfl⟩
    by_cases ha : op = .add
    · exact .inl ha
    · exact .inr (by simpa [ha] using hop)

/-- What `reductionOf` recognises: an update by `+` or `*` of a variable of
the shape that is not the counter, by a contribution that does not read it. -/
theorem reductionOf_eq_some {shape : Shape} {i : Nat} {st : Stmt} {r : Reduction}
    (h : reductionOf shape i st = some r) :
    ∃ n, shape.index? n = some r.index ∧ (r.op = .add ∨ r.op = .mul) ∧ (r.index : Int) ≠ shape.counter ∧
      r.contrib.reads n = false ∧ st.Reduces i n r := by
  unfold reductionOf at h
  cases st
  case compound p n op v =>
    dsimp only at h
    split at h
    · cases h
    · cases hk : shape.index? n with
      | none => simp [hk] at h
      | some k =>
        simp only [hk] at h
        obtain ⟨hop, hc, hr, rfl⟩ := reductionOf_checks ‹_› h
        exact ⟨n, hk, hop, hc, hr, .compound p op v k⟩
  case assign p n v =>
    cases v
    case binary p' op x y =>
      dsimp only at h
      by_cases hx : x.isIdent n = true
      · -- `n = n op y`
        obtain ⟨q, rfl⟩ := Expr.eq_of_isIdent hx
        simp only [hx, if_true] at h
        split at h
        · cases h
        · cases hk : shape.index? n with
          | none => simp [hk] at h
          | some k =>
            simp only [hk] at h
            obtain ⟨hop, hc, hr, rfl⟩ := reductionOf_checks ‹_› h
            exact ⟨n, hk, hop, hc, hr, .left p p' q op y k⟩
      · by_cases hy : y.isIdent n = true
        · -- `n = x op n`
          obtain ⟨q, rfl⟩ := Expr.eq_of_isIdent hy
          simp only [hx, hy, if_true, if_false, Bool.false_eq_true] at h
          split at h
          · cases h
          · cases hk : shape.index? n with
            | none => simp [hk] at h
            | some k =>
              simp only [hk] at h
              obtain ⟨hop, hc, hr, rfl⟩ := reductionOf_checks ‹_› h
              exact ⟨n, hk, hop, hc, hr, .right p p' q op x k⟩
        · simp [hx, hy] at h
    all_goals simp at h
  all_goals simp at h

/-! ## What vectorization accepts -/

/-- A fold that stops at the first refused element and otherwise collects
what `g` picks. -/
theorem foldl_collect {α β : Type} {f : Option (List β) → α → Option (List β)} (g : α → Option β)
    (ok : α → Prop) (hn : ∀ a, f none a = none)
    (hs : ∀ acc a r, f (some acc) a = some r → ok a ∧ r = acc ++ (g a).toList) :
    ∀ (l : List α) (acc r : List β), l.foldl f (some acc) = some r → (∀ a ∈ l, ok a) ∧ r = acc ++ l.filterMap g
  | [], acc, r, h => by
    simp only [List.foldl_nil, Option.some.injEq] at h
    exact ⟨fun _ h => (nomatch h), by rw [h, List.filterMap_nil, List.append_nil]⟩
  | a :: l, acc, r, h => by
    rw [List.foldl_cons] at h
    cases hfa : f (some acc) a with
    | none =>
      -- a refused element stops the fold for good
      rw [hfa] at h
      have hstop : ∀ l' : List α, l'.foldl f none = none := by
        intro l'
        induction l' with
        | nil => rfl
        | cons b l' ih => rw [List.foldl_cons, hn, ih]
      rw [hstop] at h
      cases h
    | some r' =>
      rw [hfa] at h
      obtain ⟨hok, rfl⟩ := hs acc a r' hfa
      obtain ⟨hl, rfl⟩ := foldl_collect g ok hn hs l _ r h
      refine ⟨fun b hb => ?_, ?_⟩
      · rcases List.mem_cons.mp hb with rfl | hb
        · exact hok
        · exact hl b hb
      · cases hg : g a <;> simp [hg]

/-- What `vectorize` accepts: a body without calls and nested loops, made of
reductions and of writes `let n = e` or `n = e`, with at least one
reduction, and whose accumulators no other statement touches. -/
theorem vectorize_eq_some {l : Loop} {shape : Shape} {stmts : List (Nat × Stmt)} {R : List Reduction}
    (h : vectorize l shape stmts = some R) :
    hasCall l.body = false ∧ hasNestedLoop l.body = false ∧ R ≠ [] ∧
      R = stmts.filterMap (fun p => reductionOf shape p.1 p.2) ∧
      (∀ p ∈ stmts, reductionOf shape p.1 p.2 = none →
        (∃ q n v, p.2 = .declare q n v) ∨ (∃ q n v, p.2 = .assign q n v)) ∧
      ∀ r ∈ R, ∀ p ∈ stmts, p.1 = r.stmt ∨ p.2.touches (shape.names[r.index]!) = false := by
  unfold vectorize at h
  split at h
  · cases h
  · rename_i hno
    simp only [Bool.or_eq_true, not_or, Bool.not_eq_true] at hno
    dsimp only at h
    split at h
    · cases h
    · cases h
    · rename_i reds hne hfold
      split at h
      · rename_i hclean
        obtain rfl := Option.some.inj h
        -- the fold keeps the reductions and lets through the writes
        have key := foldl_collect (fun p => reductionOf shape p.1 p.2)
          (fun p => reductionOf shape p.1 p.2 = none →
            (∃ q n v, p.2 = .declare q n v) ∨ (∃ q n v, p.2 = .assign q n v))
          (fun _ => rfl) ?step stmts [] reds hfold
        case step =>
          intro acc p r hr
          dsimp only at hr
          obtain ⟨i, st⟩ := p
          cases hg : reductionOf shape i st with
          | some r' =>
            simp only [hg, Option.some.injEq] at hr
            exact ⟨fun h => (nomatch h), by rw [← hr]; rfl⟩
          | none =>
            simp only [hg] at hr
            -- a statement that is no reduction passes as the write of a temporary
            refine ⟨fun _ => ?_, ?_⟩
            · cases st
              case declare q n v => exact .inl ⟨q, n, v, rfl⟩
              case assign q n v => exact .inr ⟨q, n, v, rfl⟩
              all_goals simp at hr
            · simp only [Option.toList_none, List.append_nil]
              split at hr
              · cases hr
              · split at hr
                · split at hr
                  · exact (Option.some.inj hr).symm
                  · cases hr
                · cases hr
        obtain ⟨hok, hR⟩ := key
        refine ⟨hno.1.1, hno.1.2, hne, by simpa using hR, hok, fun r hr p hp => ?_⟩
        have hc := List.all_eq_true.mp (List.all_eq_true.mp hclean r hr) p hp
        obtain ⟨i, st⟩ := p
        simpa using hc
      · cases h


/-! ## Names a statement touches -/

mutual
/-- A variable of an expression is read by one of its identifier nodes. -/
theorem Expr.ident_mem_nodes {a : String} : (e : Expr) → a ∈ e.vars → ∃ p, Node.expr (.ident p a) ∈ e.nodes
  | .ident p n, h => by
    obtain rfl := List.mem_singleton.mp h
    exact ⟨p, by simp [Expr.nodes]⟩
  | .array _ es, h | .call _ _ es, h => by
    obtain ⟨p, hp⟩ := Expr.ident_mem_nodesOf es h
    simp only [Expr.nodes, List.mem_cons]
    exact ⟨p, .inr hp⟩
  | .binary _ _ x y, h | .index _ x y, h => by
    simp only [Expr.vars, List.mem_append] at h
    simp only [Expr.nodes, List.mem_cons, List.mem_append]
    rcases h with h | h
    · obtain ⟨p, hp⟩ := Expr.ident_mem_nodes x h
      exact ⟨p, .inr (.inl hp)⟩
    · obtain ⟨p, hp⟩ := Expr.ident_mem_nodes y h
      exact ⟨p, .inr (.inr hp)⟩
  | .unary _ _ x, h => by
    obtain ⟨p, hp⟩ := Expr.ident_mem_nodes x h
    simp only [Expr.nodes, List.mem_cons]
    exact ⟨p, .inr hp⟩
  | .int .., h | .float .., h | .bool .., h => by simp [Expr.vars] at h

theorem Expr.ident_mem_nodesOf {a : String} :
    (es : List Expr) → a ∈ Expr.varsOf es → ∃ p, Node.expr (.ident p a) ∈ Expr.nodesOf es
  | [], h => by simp [Expr.varsOf] at h
  | e :: es, h => by
    simp only [Expr.varsOf, List.mem_append] at h
    simp only [Expr.nodesOf, List.mem_append]
    rcases h with h | h
    · obtain ⟨p, hp⟩ := Expr.ident_mem_nodes e h
      exact ⟨p, .inl hp⟩
    · obtain ⟨p, hp⟩ := Expr.ident_mem_nodesOf es h
      exact ⟨p, .inr hp⟩
end

/-- An expression that does not read `n` has no variable `n`. -/
theorem Expr.not_mem_vars {e : Expr} {n : String} (h : e.reads n = false) : n ∉ e.vars := by
  intro hn
  obtain ⟨p, hp⟩ := e.ident_mem_nodes hn
  have : e.reads n = true := List.any_eq_true.mpr ⟨_, hp, by simp [Node.ident?]⟩
  rw [h] at this
  cases this

/-- A statement touches every variable of an expression under it. -/
theorem Stmt.touches_of_vars {st : Stmt} {e : Expr} (he : e.nodes ⊆ st.nodes) {a : String}
    (ha : a ∈ e.vars) : st.touches a = true := by
  obtain ⟨p, hp⟩ := e.ident_mem_nodes ha
  unfold Stmt.touches
  rw [Bool.or_eq_true, List.any_eq_true]
  exact .inr ⟨_, he hp, by simp [Node.ident?]⟩

/-- A statement touches the name it writes. -/
theorem Stmt.touches_of_assigned {st : Stmt} {n : String} (h : st.assignedName? = some n) :
    st.touches n = true := by
  simp [Stmt.touches, h]

theorem Stmt.vars_subset_varsOf {s : Stmt} : ∀ {ss : List Stmt}, s ∈ ss → s.vars ⊆ Stmt.varsOf ss
  | _ :: _, .head _ => fun _ h => List.mem_append_left _ h
  | _ :: _, .tail _ hs => fun _ h => List.mem_append_right _ (Stmt.vars_subset_varsOf hs h)

theorem Stmt.nodes_subset_nodesOf {s : Stmt} : ∀ {ss : List Stmt}, s ∈ ss → s.nodes ⊆ Stmt.nodesOf ss
  | _ :: _, .head _ => fun _ h => List.mem_append_left _ h
  | _ :: _, .tail _ hs => fun _ h => List.mem_append_right _ (Stmt.nodes_subset_nodesOf hs h)

/-- The names a statement of the body mentions are in the loop's shape. -/
theorem Loop.vars_body {l : Loop} {st : Stmt} (hs : st ∈ l.body) : st.vars ⊆ l.shape.names.toList :=
  fun _ ha => l.vars_subset_canon (List.mem_append_right _ (Stmt.vars_subset_varsOf hs ha))

/-- A statement of a body without calls has none. -/
theorem Stmt.noCall_of_mem {ss : List Stmt} (hc : hasCall ss = false) {st : Stmt} (hs : st ∈ ss) :
    st.nodes.any Node.isCall = false := by
  rw [List.any_eq_false]
  intro x hx
  have := List.any_eq_false.mp hc x (Stmt.nodes_subset_nodesOf hs hx)
  simpa using this

/-! ## The accumulators of a vectorized loop -/

/-- The lanes a plan with reductions `R` opens: each accumulator's slot with
its operator. -/
def Shape.lanes (s : Shape) (R : List Reduction) : List (Nat × Op) :=
  R.map fun r => ((s.slot r.index).toNat, r.op)

theorem Stmt.Reduces.stmt_eq {i : Nat} {n : String} {st : Stmt} {r : Reduction}
    (h : st.Reduces i n r) : r.stmt = i := by
  cases h <;> rfl

theorem Stmt.Reduces.assignedName {i : Nat} {n : String} {st : Stmt} {r : Reduction}
    (h : st.Reduces i n r) : st.assignedName? = some n := by
  cases h <;> rfl

/-- The contribution is an expression under the statement. -/
theorem Stmt.Reduces.contrib_nodes {i : Nat} {n : String} {st : Stmt} {r : Reduction}
    (h : st.Reduces i n r) : r.contrib.nodes ⊆ st.nodes := by
  cases h <;> intro x hx <;> simp [Stmt.nodes, Expr.nodes, hx]

theorem Stmt.Reduces.contrib_vars {i : Nat} {n : String} {st : Stmt} {r : Reduction}
    (h : st.Reduces i n r) : r.contrib.vars ⊆ st.vars := by
  cases h <;> intro x hx <;> simp [Stmt.vars, Expr.vars, hx]

theorem reductionOf_stmt {shape : Shape} {i : Nat} {st : Stmt} {r : Reduction}
    (h : reductionOf shape i st = some r) : r.stmt = i :=
  let ⟨_, _, _, _, _, hred⟩ := reductionOf_eq_some h
  hred.stmt_eq

theorem Shape.names_getElem!_of_index? {s : Shape} {n : String} {k : Nat} (h : s.index? n = some k) :
    s.names[k]! = n := by
  unfold Shape.index? at h
  rw [Array.idxOf?_eq_toList] at h
  obtain ⟨hk, he, -⟩ := List.idxOf?_eq_some_iff.mp h
  rw [getElem!_pos s.names k (by simpa using hk)]
  simpa using he

/-- A name's slot is its canonical variable's slot when that is promoted. -/
theorem Shape.slotOf?_of_index? {s : Shape} {n : String} {k : Nat} (hk : s.index? n = some k) :
    s.slotOf? n = Compiler.promoted (s.slot k) := by
  unfold Shape.slotOf? Compiler.promoted
  rw [hk]

theorem Compiler.promoted_eq_some {s : Int} {t : Nat} (h : promoted s = some t) : 0 ≤ s ∧ s.toNat = t := by
  unfold promoted at h
  split at h
  · exact ⟨‹_›, Option.some.inj h⟩
  · cases h

/-- A name with a slot has it from its canonical variable, which is promoted. -/
theorem Shape.slot_of_slotOf? {s : Shape} {n : String} {k t : Nat} (hk : s.index? n = some k)
    (ht : s.slotOf? n = some t) : Compiler.promoted (s.slot k) = some t ∧ (s.slot k).toNat = t := by
  rw [Shape.slotOf?_of_index? hk] at ht
  exact ⟨ht, (Compiler.promoted_eq_some ht).2⟩

/-- Body statements are numbered in increasing order. -/
theorem Stmt.pairwise_indexFrom : ∀ (i : Nat) (ss : List Stmt),
    (Stmt.indexFrom i ss).Pairwise (fun p q => p.1 < q.1)
  | _, [] => List.Pairwise.nil
  | i, s :: ss => by
    refine List.Pairwise.cons (fun q hq => ?_) (Stmt.pairwise_indexFrom _ ss)
    have := (Stmt.le_of_mem_indexFrom hq).1
    have := s.size_pos
    dsimp only
    omega

/-- Statement `st`, numbered `i` in the body of `l`, makes reduction `r` on
the accumulator `n`, which has a slot. -/
structure Loop.Accumulates (l : Loop) (r : Reduction) (i : Nat) (st : Stmt) (n : String) : Prop where
  mem : (i, st) ∈ l.indexedBody
  of : reductionOf l.shape i st = some r
  reduces : st.Reduces i n r
  index : l.shape.index? n = some r.index
  slot : l.shape.slotOf? n = some (l.shape.slot r.index).toNat

/-- The variable of a counted loop is numbered first and is the counter. -/
theorem Loop.index?_var {l : Loop} {v : String} {a b : Expr} {st : Option Expr}
    (hh : l.head = .range v a b st) : l.shape.index? v = some 0 ∧ l.shape.counter = 0 := by
  obtain ⟨k, p, h, body⟩ := l
  dsimp only at hh
  subst hh
  refine ⟨?_, Canon.counter_stmt _ _⟩
  unfold Shape.index?
  rw [Loop.shape_names, Array.idxOf?_eq_toList]
  simp only [Loop.canon]
  -- the table starts with the loop variable alone
  obtain ⟨rest, hrest⟩ := Canon.names_prefix_stmt
    { (({} : Canon).loopVar v).2 with counter := 0 } (Loop.mk k p (.range v a b st) body).toStmt
  rw [← hrest]
  simp [Canon.loopVar, Canon.name, List.idxOf?_cons]

section Accumulators

variable {l : Loop} {R : List Reduction} (hv : vectorize l l.shape l.indexedBody = some R)
include hv

/-- Every reduction of the plan is made by a statement of the body on an
accumulator with a slot. -/
theorem Loop.accumulates_of_mem {r : Reduction} (hr : r ∈ R) : ∃ i st n, l.Accumulates r i st n := by
  obtain ⟨-, -, -, hR, -, -⟩ := vectorize_eq_some hv
  rw [hR, List.mem_filterMap] at hr
  obtain ⟨⟨i, st⟩, hp, hof⟩ := hr
  obtain ⟨n, hidx, -, -, -, hred⟩ := reductionOf_eq_some hof
  obtain ⟨t, ht⟩ := Loop.slotOf?_of_assigned (Stmt.le_of_mem_indexFrom hp).2 hred.assignedName
  obtain ⟨-, rfl⟩ := Shape.slot_of_slotOf? hidx ht
  exact ⟨i, st, n, hp, hof, hred, hidx, ht⟩

/-- The reduction of the plan numbered like a statement is that statement's. -/
theorem Loop.reductionOf_of_stmt {i : Nat} {st : Stmt} (hp : (i, st) ∈ l.indexedBody) {r : Reduction}
    (hr : r ∈ R) (hi : r.stmt = i) : reductionOf l.shape i st = some r := by
  obtain ⟨i', st', n, ha⟩ := Loop.accumulates_of_mem hv hr
  have hi' := ha.reduces.stmt_eq
  have heq := Stmt.eq_of_mem_indexFrom ha.mem hp (by dsimp only; omega)
  cases heq
  exact ha.of

/-- A name with the slot of a lane is an accumulator. -/
theorem Loop.lane_name {a : String} {t : Nat} (ha : l.shape.slotOf? a = some t)
    (ht : t ∈ (l.shape.lanes R).map Prod.fst) : ∃ r ∈ R, a = l.shape.names[r.index]! := by
  simp only [Shape.lanes, List.map_map, List.mem_map, Function.comp_def] at ht
  obtain ⟨r, hr, rfl⟩ := ht
  obtain ⟨i, st, n, hacc⟩ := Loop.accumulates_of_mem hv hr
  refine ⟨r, hr, ?_⟩
  rw [Shape.names_getElem!_of_index? hacc.index]
  exact Loop.slotOf?_inj ha hacc.slot

/-- A statement that touches a name with the slot of a lane makes the
reduction of that accumulator. -/
theorem Loop.touched_lane {i : Nat} {st : Stmt} (hp : (i, st) ∈ l.indexedBody) {a : String} {t : Nat}
    (htouch : st.touches a = true) (ha : l.shape.slotOf? a = some t)
    (ht : t ∈ (l.shape.lanes R).map Prod.fst) :
    ∃ r ∈ R, reductionOf l.shape i st = some r ∧ a = l.shape.names[r.index]! := by
  obtain ⟨r, hr, rfl⟩ := Loop.lane_name hv ha ht
  obtain ⟨-, -, -, -, -, hclean⟩ := vectorize_eq_some hv
  rcases hclean r hr (i, st) hp with hi | hno
  · exact ⟨r, hr, Loop.reductionOf_of_stmt hv hp hr hi.symm, rfl⟩
  · rw [htouch] at hno
    cases hno

/-- Accumulators own distinct slots. -/
theorem Loop.lanes_nodup : ((l.shape.lanes R).map Prod.fst).Nodup := by
  obtain ⟨-, -, -, hR, -, hclean⟩ := vectorize_eq_some hv
  -- reductions are made by distinct statements
  have hpw : R.Pairwise (fun r r' => r.stmt ≠ r'.stmt) := by
    rw [hR, List.pairwise_filterMap]
    refine (Stmt.pairwise_indexFrom _ l.body).imp fun {p q} hpq b hb b' hb' => ?_
    rw [reductionOf_stmt hb, reductionOf_stmt hb']
    exact Nat.ne_of_lt hpq
  unfold Shape.lanes List.Nodup
  rw [List.map_map, List.pairwise_map]
  refine hpw.imp_of_mem fun {r r'} hr hr' hne heq => hne ?_
  obtain ⟨i, st, n, ha⟩ := Loop.accumulates_of_mem hv hr
  obtain ⟨i', st', n', ha'⟩ := Loop.accumulates_of_mem hv hr'
  have hslot : l.shape.slotOf? n' = some (l.shape.slot r.index).toNat := by
    rw [ha'.slot]
    exact congrArg some heq.symm
  have hn : n = n' := Loop.slotOf?_inj ha.slot hslot
  -- the statement of `r` touches the accumulator of `r'`, so it is the statement of `r'`
  rcases hclean r' hr' (i, st) ha.mem with hi | hno
  · rw [ha.reduces.stmt_eq]
    exact hi
  · rw [Shape.names_getElem!_of_index? ha'.index, ← hn,
      Stmt.touches_of_assigned ha.reduces.assignedName] at hno
    cases hno

/-- Lanes combine by `+` or `*`. -/
theorem Loop.lanes_ops : ∀ p ∈ l.shape.lanes R, p.2 = .add ∨ p.2 = .mul := by
  intro p hp
  simp only [Shape.lanes, List.mem_map] at hp
  obtain ⟨r, hr, rfl⟩ := hp
  obtain ⟨i, st, n, ha⟩ := Loop.accumulates_of_mem hv hr
  exact (reductionOf_eq_some ha.of).choose_spec.2.1

/-- The counter of a counted loop has no lane. -/
theorem Loop.counter_not_lane {v : String} {a b : Expr} {st : Option Expr} (hh : l.head = .range v a b st) :
    (l.shape.slot 0).toNat ∉ (l.shape.lanes R).map Prod.fst := by
  intro ht
  obtain ⟨hv0, hc⟩ := Loop.index?_var hh
  -- the loop variable is declared, so its slot is promoted
  have hd : l.canon.Declares v := Loop.declares_canon l v (by
    obtain ⟨k, p, h, body⟩ := l
    dsimp only at hh
    subst hh
    simp [Loop.toStmt, Stmt.nodes, Node.binds?])
  obtain ⟨s, hs, -⟩ := Loop.slotOf?_of_declares hd
  obtain ⟨-, rfl⟩ := Shape.slot_of_slotOf? hv0 hs
  obtain ⟨r, hr, hvr⟩ := Loop.lane_name hv hs ht
  obtain ⟨i, st', n, ha⟩ := Loop.accumulates_of_mem hv hr
  rw [Shape.names_getElem!_of_index? ha.index] at hvr
  subst hvr
  have h0 : r.index = 0 := Option.some.inj (ha.index.symm.trans hv0)
  obtain ⟨_, _, -, hk, -⟩ := reductionOf_eq_some ha.of
  rw [hc, h0] at hk
  exact hk rfl

end Accumulators

end HotLoop
