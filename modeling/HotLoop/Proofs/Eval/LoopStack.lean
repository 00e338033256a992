import HotLoop.Eval.Program
/-!
# HotLoop.Proofs.Eval.LoopStack

A runtime error of the interpreter carries its dynamic loop context. The
error is located once, at the node whose evaluation or execution failed;
every loop it then leaves through an iteration (the loop's body, or the
condition of a conditional loop) appends itself to the error's loop stack,
so the stack lists the loops innermost first. An error of a loop's start,
end, step or collection leaves before any iteration and does not name that
loop.

* `Stmt.enclosed` pairs every node of a statement with the loops whose
  iterations evaluate it, innermost first. The interpreter evaluates a node
  only inside iterations of those loops, so the list is the node's loop
  context; no loop occurs in it twice (`Stmt.enclosedOf_nodup`).
* `Error.RaisedIn R e`: `e` ran out of fuel, or it is a fault with no
  position of its own, located at a node of `R` and carrying that node's
  loops as its loop stack.
* `Plain P Q x`: `x`, started on a machine with no dispatcher, returns a
  value `P` accepts and leaves no dispatcher, or fails with an error `Q`
  accepts. It composes along binds, and an induction on the fuel
  (`Reporting`) carries it through every function of the interpreter.
* `runtime_error_context`: a program run without a dispatcher fails only by
  running out of fuel, or with a runtime error raised at one of its nodes
  that lists the node's loops, each once, as its loop stack.
-/

namespace HotLoop

/-! ## The loops around a node -/

namespace LoopHead

/-- The header expressions a loop evaluates once, before its iterations:
the bounds and step of a counted loop, the collection of a collection loop. -/
def before : LoopHead → List Expr
  | .cond _ => []
  | h => h.exprs

/-- The header expressions a loop evaluates in every iteration: the
condition of a conditional loop. -/
def inside : LoopHead → List Expr
  | .cond c => [c]
  | _ => []

end LoopHead

/-- Nodes with no loop around them. -/
def unlooped (ns : List Node) : List (Node × List Loop) := ns.map fun n => (n, [])

/-- Nodes with their loops, all inside one more loop `l`. -/
def Loop.around (l : Loop) (R : List (Node × List Loop)) : List (Node × List Loop) :=
  R.map fun p => (p.1, p.2 ++ [l])

mutual
/-- Every node of a statement, paired with the loops whose iterations
evaluate it, innermost first: the loops whose body holds it, and the
conditional loops whose condition holds it. -/
def Stmt.enclosed : Stmt → List (Node × List Loop)
  | s@(.cond _ c t e) =>
    (.stmt s, []) :: (unlooped c.nodes ++ Stmt.enclosedOf t ++ Stmt.enclosedOf e)
  | s@(.loop k p h b) =>
    (.stmt s, []) :: (unlooped (Expr.nodesOf h.before) ++
      Loop.around ⟨k, p, h, b⟩ (unlooped (Expr.nodesOf h.inside) ++ Stmt.enclosedOf b))
  | s => unlooped s.nodes

/-- `Stmt.enclosed` of every statement of a block. -/
def Stmt.enclosedOf : List Stmt → List (Node × List Loop)
  | [] => []
  | s :: ss => s.enclosed ++ Stmt.enclosedOf ss
end

theorem unlooped_mono {ns ns' : List Node} (h : ns ⊆ ns') : unlooped ns ⊆ unlooped ns' :=
  List.map_subset _ h

theorem mem_unlooped {n : Node} {ns : List Node} (h : n ∈ ns) : (n, []) ∈ unlooped ns :=
  List.mem_map_of_mem h

/-- An expression's own node comes first among its nodes. -/
theorem Expr.self_mem_nodes (e : Expr) : .expr e ∈ e.nodes := by
  cases e <;> simp [Expr.nodes]

theorem Expr.self_mem_unlooped (e : Expr) : (.expr e, []) ∈ unlooped e.nodes :=
  mem_unlooped e.self_mem_nodes

theorem Expr.nodes_subset_nodesOf {e : Expr} :
    ∀ {es : List Expr}, e ∈ es → e.nodes ⊆ Expr.nodesOf es
  | _ :: es, h => by
    rcases List.mem_cons.mp h with rfl | h
    · simp [Expr.nodesOf]
    · exact List.Subset.trans (nodes_subset_nodesOf h) (by simp [Expr.nodesOf])

theorem eq_nil_of_mem_unlooped {n : Node} {ls : List Loop} {ns : List Node}
    (h : (n, ls) ∈ unlooped ns) : ls = [] := by
  obtain ⟨_, _, heq⟩ := List.mem_map.1 h
  exact (Prod.mk.inj heq).2.symm

theorem Stmt.self_mem_enclosed (s : Stmt) : (.stmt s, []) ∈ s.enclosed := by
  cases s with
  | ret p v => cases v <;> simp [Stmt.enclosed, Stmt.nodes, unlooped]
  | _ => simp [Stmt.enclosed, Stmt.nodes, unlooped]

namespace Loop

/-- The nodes a loop evaluates before its iterations, outside it: the loop
itself, which refuses a zero step and a value that is no collection, and its
header expressions but the condition. -/
def headerSites (l : Loop) : List (Node × List Loop) :=
  (.stmt l.toStmt, []) :: unlooped (Expr.nodesOf l.head.before)

/-- The nodes an iteration of `l` evaluates, with `l` outermost among their
loops. -/
def iterationSites (l : Loop) : List (Node × List Loop) :=
  l.around (unlooped (Expr.nodesOf l.head.inside) ++ Stmt.enclosedOf l.body)

theorem enclosed_toStmt (l : Loop) : l.toStmt.enclosed = l.headerSites ++ l.iterationSites := by
  simp only [toStmt, Stmt.enclosed, headerSites, iterationSites, List.cons_append]

theorem self_mem_headerSites (l : Loop) : (.stmt l.toStmt, []) ∈ l.headerSites :=
  List.mem_cons_self ..

theorem unlooped_subset_headerSites {l : Loop} {e : Expr} (h : e ∈ l.head.before) :
    unlooped e.nodes ⊆ l.headerSites :=
  List.subset_cons_of_subset _ (unlooped_mono (Expr.nodes_subset_nodesOf h))

theorem iterationSites_of_body (l : Loop) :
    l.around (Stmt.enclosedOf l.body) ⊆ l.iterationSites :=
  List.map_subset _ (List.subset_append_right _ _)

theorem iterationSites_of_cond {l : Loop} {c : Expr} (h : l.head = .cond c) :
    l.around (unlooped c.nodes) ⊆ l.iterationSites := by
  refine List.map_subset _ (List.subset_append_of_subset_left _ ?_)
  simp [h, LoopHead.inside, Expr.nodesOf]

theorem headerSites_subset (l : Loop) : l.headerSites ⊆ l.toStmt.enclosed := by
  rw [enclosed_toStmt]
  exact List.subset_append_left _ _

theorem iterationSites_subset (l : Loop) : l.iterationSites ⊆ l.toStmt.enclosed := by
  rw [enclosed_toStmt]
  exact List.subset_append_right _ _

end Loop

/-! ## Each loop once -/

/-- `ls` is a stack of loops, each smaller than every loop after it, all
smaller than `bound`. -/
def Nested (ls : List Loop) (bound : Nat) : Prop :=
  ls.Pairwise (fun inner outer => sizeOf inner < sizeOf outer) ∧ ∀ l ∈ ls, sizeOf l < bound

namespace Nested

theorem nil (bound : Nat) : Nested [] bound := ⟨List.Pairwise.nil, fun _ h => nomatch h⟩

theorem mono {ls : List Loop} {b b' : Nat} (h : Nested ls b) (hb : b ≤ b') : Nested ls b' :=
  ⟨h.1, fun l hl => Nat.lt_of_lt_of_le (h.2 l hl) hb⟩

/-- A loop around a stack of loops smaller than itself. -/
theorem snoc {ls : List Loop} {l : Loop} (h : Nested ls (sizeOf l)) :
    Nested (ls ++ [l]) (sizeOf l + 1) := by
  refine ⟨List.pairwise_append.2 ⟨h.1, List.pairwise_singleton _ _, fun a ha b hb => ?_⟩,
    fun a ha => ?_⟩
  · rw [List.mem_singleton.1 hb]
    exact h.2 a ha
  · rcases List.mem_append.1 ha with ha | ha
    · exact Nat.lt_succ_of_lt (h.2 a ha)
    · rw [List.mem_singleton.1 ha]
      exact Nat.lt_succ_self _

theorem nodup {ls : List Loop} {b : Nat} (h : Nested ls b) : ls.Nodup :=
  h.1.imp fun hlt heq => by subst heq; exact Nat.lt_irrefl _ hlt

end Nested

mutual
/-- The loops of a node of `s` are nested, the outermost no larger than `s`. -/
theorem Stmt.nested_enclosed : ∀ (s : Stmt) {n : Node} {ls : List Loop},
    (n, ls) ∈ s.enclosed → Nested ls (sizeOf s + 1)
  | .cond p c t e, n, ls, h => by
    simp only [Stmt.enclosed, List.mem_cons, List.mem_append] at h
    rcases h with h | (h | h) | h
    · cases h
      exact Nested.nil _
    · rw [eq_nil_of_mem_unlooped h]
      exact Nested.nil _
    · exact (Stmt.nested_enclosedOf t h).mono (by simp only [Stmt.cond.sizeOf_spec]; omega)
    · exact (Stmt.nested_enclosedOf e h).mono (by simp only [Stmt.cond.sizeOf_spec]; omega)
  | .loop k p hd b, n, ls, h => by
    simp only [Stmt.enclosed, List.mem_cons, List.mem_append] at h
    rcases h with h | h | h
    · cases h
      exact Nested.nil _
    · rw [eq_nil_of_mem_unlooped h]
      exact Nested.nil _
    · -- inside an iteration: the loop goes around the loops of its body
      obtain ⟨⟨n', ls'⟩, h', heq⟩ := List.mem_map.1 h
      obtain ⟨rfl, rfl⟩ := Prod.mk.inj heq
      have hb : Nested ls' (sizeOf (⟨k, p, hd, b⟩ : Loop)) := by
        rcases List.mem_append.1 h' with h' | h'
        · rw [eq_nil_of_mem_unlooped h']
          exact Nested.nil _
        · exact (Stmt.nested_enclosedOf b h').mono (by simp only [Loop.mk.sizeOf_spec]; omega)
      have hs : sizeOf (Stmt.loop k p hd b) = sizeOf (⟨k, p, hd, b⟩ : Loop) := by
        simp only [Stmt.loop.sizeOf_spec, Loop.mk.sizeOf_spec]
      rw [hs]
      exact hb.snoc
  | .declare .., _, _, h | .assign .., _, _, h | .compound .., _, _, h | .step .., _, _, h
  | .brk .., _, _, h | .cont .., _, _, h | .ret .., _, _, h | .eval .., _, _, h => by
    rw [eq_nil_of_mem_unlooped h]
    exact Nested.nil _

/-- The loops of a node of a block are nested, each smaller than the block. -/
theorem Stmt.nested_enclosedOf : ∀ (ss : List Stmt) {n : Node} {ls : List Loop},
    (n, ls) ∈ Stmt.enclosedOf ss → Nested ls (sizeOf ss)
  | [], _, _, h => by simp [Stmt.enclosedOf] at h
  | s :: ss, n, ls, h => by
    simp only [Stmt.enclosedOf, List.mem_append] at h
    rcases h with h | h
    · exact (Stmt.nested_enclosed s h).mono (by simp only [List.cons.sizeOf_spec]; omega)
    · exact (Stmt.nested_enclosedOf ss h).mono (by simp only [List.cons.sizeOf_spec]; omega)
end

/-- No loop occurs twice among the loops of a node of a block. -/
theorem Stmt.enclosedOf_nodup {ss : List Stmt} {n : Node} {ls : List Loop}
    (h : (n, ls) ∈ Stmt.enclosedOf ss) : ls.Nodup :=
  (Stmt.nested_enclosedOf ss h).nodup

/-! ## Errors raised at a node -/

namespace Error

/-- `e` ran out of fuel, or it is a runtime error raised at a node of `R`: a
fault with no position of its own, located at the node, with the node's
loops as its loop stack. -/
def RaisedIn (R : List (Node × List Loop)) (e : Error) : Prop :=
  e = outOfFuel ∨ ∃ n ls base, (n, ls) ∈ R ∧ base.located? = none ∧
    e = .located .runtime base n.pos.line n.pos.col "" (ls.map Loop.frameEntry)

variable {R R' : List (Node × List Loop)} {e : Error}

theorem RaisedIn.mono (h : e.RaisedIn R) (hR : R ⊆ R') : e.RaisedIn R' := by
  rcases h with h | ⟨n, ls, base, hn, hb, rfl⟩
  · exact .inl h
  · exact .inr ⟨n, ls, base, hR hn, hb, rfl⟩

theorem raisedIn_outOfFuel : outOfFuel.RaisedIn R := .inl rfl

/-- A fault with no position, located at a node outside every loop. -/
theorem raisedIn_at {base : Error} {n : Node} (hb : base.located? = none) (hn : (n, []) ∈ R) :
    (base.at n.pos).RaisedIn R :=
  .inr ⟨n, [], base, hn, hb, by simp [Error.at, locate, hb]⟩

/-- Leaving an iteration of `l` puts `l` outside the loops of the node. -/
theorem RaisedIn.throughLoop (h : e.RaisedIn R) (l : Loop) :
    (e.throughLoop l.frameEntry).RaisedIn (l.around R) := by
  rcases h with rfl | ⟨n, ls, base, hn, hb, rfl⟩
  · exact .inl rfl
  · refine .inr ⟨n, ls ++ [l], base, List.mem_map_of_mem hn, hb, ?_⟩
    simp [Error.throughLoop]

end Error

/-- The error of `r`, if any, satisfies `Q`. -/
def FailsWith {α : Type} (Q : Error → Prop) (r : Except Error α) : Prop :=
  ∀ e, r = .error e → Q e

/-- The error of `r`, if any, has no position of its own. -/
def Unlocated {α : Type} (r : Except Error α) : Prop := FailsWith (fun e => e.located? = none) r

theorem failsWith_ok {α : Type} {Q : Error → Prop} (a : α) : FailsWith Q (.ok a) :=
  fun _ h => nomatch h

theorem failsWith_error {α : Type} {Q : Error → Prop} {e : Error} (h : Q e) :
    FailsWith Q (.error e : Except Error α) :=
  fun _ he => by cases he; exact h

theorem Unlocated.map {α β : Type} {r : Except Error α} (h : Unlocated r) (f : α → β) :
    Unlocated (r.map f) := by
  intro e he
  cases r with
  | ok a => cases he
  | error e' =>
    cases he
    exact h e rfl

/-! ## Operators and builtins fail without a position

Their faults are sentinels, notes and details in front of either; the node
that applied them gives the position. -/

theorem intBinary_unlocated (op : Op) (x y : Int64) : Unlocated (intBinary op x y) := by
  intro e h
  unfold intBinary at h
  split at h <;> (try split at h) <;> cases h <;> rfl

namespace Value

theorem floatBinary_unlocated (op : Op) (a b : Value) (x y : Double) :
    Unlocated (floatBinary op a b x y) := by
  intro e h
  unfold floatBinary at h
  split at h <;> cases h
  rfl

theorem binary_unlocated (op : Op) (a b : Value) : Unlocated (binary op a b) := by
  intro e h
  unfold binary at h
  split at h
  any_goals cases h
  split at h
  · exact intBinary_unlocated _ _ _ e h
  · split at h
    · exact floatBinary_unlocated _ _ _ _ _ e h
    · cases h; rfl

theorem unary_unlocated (op : Op) (v : Value) : Unlocated (unary op v) := by
  intro e h
  unfold unary at h
  split at h <;> cases h
  rfl

theorem index_unlocated (a i : Value) : Unlocated (index a i) := by
  intro e h
  unfold index at h
  split at h
  · split at h
    · cases h; rfl
    · split at h <;> cases h
      rfl
  · cases h; rfl

end Value

namespace Builtin

theorem pick_unlocated (op : Op) : ∀ (best : Value) (args : List Value),
    Unlocated (pick op best args)
  | _, [] => failsWith_ok _
  | best, a :: rest => by
    intro e h
    unfold pick at h
    split at h
    · rename_i e' he
      cases h
      exact Value.binary_unlocated _ _ _ _ he
    · exact pick_unlocated op _ rest e h

theorem apply_unlocated (b : Builtin) (args : List Value) : Unlocated (b.apply args) := by
  intro e h
  unfold apply at h
  split at h
  any_goals (cases h <;> rfl)
  all_goals exact Unlocated.map (pick_unlocated _ _ _) _ e h

end Builtin

/-! ## Runs without a dispatcher -/

/-- Where a run may end: on a machine with no dispatcher, returning a value
`P` accepts or failing with an error `Q` accepts. -/
def Lands {α : Type} (P : α → Prop) (Q : Error → Prop) :
    EStateM.Result Error Machine α → Prop
  | .ok a m => m.dispatcher = none ∧ P a
  | .error e m => m.dispatcher = none ∧ Q e

/-- Started on any machine with no dispatcher, `x` lands in `P` or `Q`. -/
def Plain {α : Type} (P : α → Prop) (Q : Error → Prop) (x : Run α) : Prop :=
  ∀ m : Machine, m.dispatcher = none → Lands P Q (x m)

section Plain

variable {α β : Type} {P P' : α → Prop} {Q Q' : Error → Prop}

theorem Plain.mono {x : Run α} (hx : Plain P Q x) (hP : ∀ a, P a → P' a)
    (hQ : ∀ e, Q e → Q' e) : Plain P' Q' x := by
  intro m hm
  have h := hx m hm
  cases hxm : x m with
  | ok a m' =>
    rw [hxm] at h
    exact ⟨h.1, hP a h.2⟩
  | error e m' =>
    rw [hxm] at h
    exact ⟨h.1, hQ e h.2⟩

/-- More nodes may raise the errors. -/
theorem Plain.widen {x : Run α} {R R' : List (Node × List Loop)}
    (hx : Plain P (Error.RaisedIn R) x) (hR : R ⊆ R') : Plain P (Error.RaisedIn R') x :=
  hx.mono (fun _ h => h) fun _ h => h.mono hR

theorem Plain.pure {a : α} (ha : P a) : Plain P Q (pure a) := fun _ hm => ⟨hm, ha⟩

theorem Plain.throw {e : Error} (he : Q e) : Plain P Q (throw e : Run α) :=
  fun _ hm => ⟨hm, he⟩

theorem Plain.bind {x : Run α} {f : α → Run β} {P₂ : β → Prop} (hx : Plain P Q x)
    (hf : ∀ a, P a → Plain P₂ Q (f a)) : Plain P₂ Q (x >>= f) := by
  intro m hm
  have h := hx m hm
  show Lands P₂ Q (EStateM.bind x f m)
  unfold EStateM.bind
  cases hxm : x m with
  | ok a m' =>
    rw [hxm] at h
    exact hf a h.2 m' h.1
  | error e m' =>
    rw [hxm] at h
    exact h

/-- A computation that reads the machine first may assume it has no
dispatcher. -/
theorem Plain.get {g : Machine → Run α} (hg : ∀ m, m.dispatcher = none → Plain P Q (g m)) :
    Plain P Q (get >>= g) :=
  fun m hm => hg m hm m hm

end Plain

namespace Run

variable {Q : Error → Prop} {R : List (Node × List Loop)}

theorem plain_lookup (n : String) : Plain (fun _ => True) Q (lookup n) :=
  fun _ hm => ⟨hm, trivial⟩

theorem plain_declare (n : String) (v : Value) : Plain (fun _ => True) Q (declare n v) :=
  fun _ hm => ⟨hm, trivial⟩

theorem plain_emit (t : String) : Plain (fun _ => True) Q (emit t) := fun _ hm => ⟨hm, trivial⟩

/-- Assigning an undefined name fails at the assigning node. -/
theorem plain_assign {nd : Node} (x : String) (v : Value) (hn : (nd, []) ∈ R) :
    Plain (fun _ => True) (Error.RaisedIn R) (assign x v nd.pos) := by
  intro m hm
  unfold assign
  split
  · exact ⟨hm, trivial⟩
  · exact ⟨hm, Error.raisedIn_at rfl hn⟩

theorem plain_located {nd : Node} {r : Except Error Value} (hr : Unlocated r)
    (hn : (nd, []) ∈ R) : Plain (fun _ => True) (Error.RaisedIn R) (located nd.pos r) := by
  cases r with
  | ok v => exact Plain.pure trivial
  | error e => exact Plain.throw (Error.raisedIn_at (hr e rfl) hn)

theorem plain_within {α : Type} {P : α → Prop} {x : Run α} (layer : Layer) (hx : Plain P Q x) :
    Plain P Q (within layer x) := by
  intro m hm
  have h := hx { m with env := layer :: m.env } hm
  unfold within
  split <;> rename_i heq <;> rw [heq] at h <;> exact h

/-- An attempt returns the error as data. -/
theorem plain_attempt {α : Type} {Q' : Error → Prop} {x : Run α}
    (hx : Plain (fun _ => True) Q x) : Plain (FailsWith Q) Q' (attempt x) := by
  intro m hm
  have h := hx m hm
  unfold attempt
  split <;> rename_i heq <;> rw [heq] at h
  · exact ⟨h.1, failsWith_ok _⟩
  · exact ⟨h.1, failsWith_error h.2⟩

end Run

/-! ## Expressions -/

mutual
/-- A runtime error of an expression is raised at one of its nodes, outside
every loop. -/
theorem plain_evalExpr : (e : Expr) →
    Plain (fun _ => True) (Error.RaisedIn (unlooped e.nodes)) (evalExpr e)
  | .int _ n => by simp only [evalExpr]; exact Plain.pure trivial
  | .float _ x => by simp only [evalExpr]; exact Plain.pure trivial
  | .bool _ b => by simp only [evalExpr]; exact Plain.pure trivial
  | .array p es => by
    simp only [evalExpr]
    exact ((plain_evalExprs es).widen (unlooped_mono (by simp [Expr.nodes]))).bind
      fun _ _ => Plain.pure trivial
  | .ident p n => by
    simp only [evalExpr]
    refine (Run.plain_lookup n).bind fun r _ => ?_
    cases r with
    | some v => exact Plain.pure trivial
    | none => exact Plain.throw (Error.raisedIn_at rfl (Expr.self_mem_unlooped _))
  | .binary p op x y => by
    simp only [evalExpr]
    refine ((plain_evalExpr x).widen (unlooped_mono (by simp [Expr.nodes]))).bind fun a _ => ?_
    split
    · exact Plain.pure trivial
    split
    · exact Plain.pure trivial
    exact ((plain_evalExpr y).widen (unlooped_mono (by simp [Expr.nodes]))).bind fun b _ =>
      Run.plain_located (Value.binary_unlocated op a b) (Expr.self_mem_unlooped _)
  | .unary p op x => by
    simp only [evalExpr]
    exact ((plain_evalExpr x).widen (unlooped_mono (by simp [Expr.nodes]))).bind fun a _ =>
      Run.plain_located (Value.unary_unlocated op a) (Expr.self_mem_unlooped _)
  | .index p x i => by
    simp only [evalExpr]
    exact ((plain_evalExpr x).widen (unlooped_mono (by simp [Expr.nodes]))).bind fun a _ =>
      ((plain_evalExpr i).widen (unlooped_mono (by simp [Expr.nodes]))).bind fun k _ =>
      Run.plain_located (Value.index_unlocated a k) (Expr.self_mem_unlooped _)
  | .call p f args => by
    simp only [evalExpr]
    cases Builtin.ofName? f with
    | none => exact Plain.throw (Error.raisedIn_at rfl (Expr.self_mem_unlooped _))
    | some b =>
      refine ((plain_evalExprs args).widen (unlooped_mono (by simp [Expr.nodes]))).bind
        fun vs _ => ?_
      cases hb : b.apply vs with
      | ok r => exact (Run.plain_emit r.2).bind fun _ _ => Plain.pure trivial
      | error e =>
        -- the builtin's fault sits under the name of the function
        have he : (Error.context f e).located? = none := Builtin.apply_unlocated b vs e hb
        exact Plain.throw (Error.raisedIn_at he (Expr.self_mem_unlooped _))

/-- A runtime error of a list of expressions is raised at one of their
nodes. -/
theorem plain_evalExprs : (es : List Expr) →
    Plain (fun _ => True) (Error.RaisedIn (unlooped (Expr.nodesOf es))) (evalExprs es)
  | [] => by simp only [evalExprs]; exact Plain.pure trivial
  | e :: es => by
    simp only [evalExprs]
    exact ((plain_evalExpr e).widen (unlooped_mono (by simp [Expr.nodesOf]))).bind fun _ _ =>
      ((plain_evalExprs es).widen (unlooped_mono (by simp [Expr.nodesOf]))).bind fun _ _ =>
      Plain.pure trivial
end

/-! ## Loop headers -/

theorem plain_evalBound (e : Expr) :
    Plain (fun _ => True) (Error.RaisedIn (unlooped e.nodes)) (evalBound e) := by
  unfold evalBound
  refine (plain_evalExpr e).bind fun v _ => ?_
  split
  · exact Plain.pure trivial
  · exact Plain.throw (Error.raisedIn_at rfl e.self_mem_unlooped)

/-- A zero step is refused at the loop. -/
theorem checkStep_raisedIn (step : Int64) (l : Loop) :
    FailsWith (Error.RaisedIn l.headerSites) (checkStep step l.pos) := by
  intro e h
  unfold checkStep at h
  split at h
  · cases h
    exact Error.raisedIn_at rfl l.self_mem_headerSites
  · cases h

/-- A value that is no collection is refused at the loop. -/
theorem collection_raisedIn (v : Value) (l : Loop) :
    FailsWith (Error.RaisedIn l.headerSites) (collection v l.pos) := by
  intro e h
  unfold collection at h
  split at h
  · cases h
  · cases h
    exact Error.raisedIn_at rfl l.self_mem_headerSites

/-- A loop's header fails at the loop or at a node of its bounds, step or
collection, outside the loop. -/
theorem plain_evalHeader (l : Loop) :
    Plain (fun _ => True) (Error.RaisedIn l.headerSites) (evalHeader l) := by
  unfold evalHeader
  split
  · rename_i v a b s hh
    have hmem : a ∈ l.head.before ∧ b ∈ l.head.before ∧
        ∀ c, s = some c → c ∈ l.head.before := by
      rw [hh]
      cases s <;> simp [LoopHead.before, LoopHead.exprs]
    refine ((plain_evalBound a).widen (Loop.unlooped_subset_headerSites hmem.1)).bind
      fun start _ => ((plain_evalBound b).widen (Loop.unlooped_subset_headerSites hmem.2.1)).bind
      fun stop _ => ?_
    split
    · exact Plain.pure trivial
    · rename_i c
      refine ((plain_evalBound c).widen
        (Loop.unlooped_subset_headerSites (hmem.2.2 c rfl))).bind fun step _ => ?_
      split
      · exact Plain.pure trivial
      · rename_i e he
        exact Plain.throw (checkStep_raisedIn step l e he)
  · rename_i v c hh
    have hmem : c ∈ l.head.before := by simp [hh, LoopHead.before, LoopHead.exprs]
    refine ((plain_evalExpr c).widen (Loop.unlooped_subset_headerSites hmem)).bind fun v _ => ?_
    split
    · exact Plain.pure trivial
    · rename_i e he
      exact Plain.throw (collection_raisedIn v l e he)
  · exact Plain.pure trivial

/-! ## Statements and loops -/

/-- The error a run of iterations of `l` ends in, if any, was raised at a
node of an iteration of `l`. -/
def Pass.RaisedIn (l : Loop) (p : Pass) : Prop :=
  FailsWith (Error.RaisedIn l.iterationSites) p.result

/-- What the interpreter guarantees at one fuel, started without a
dispatcher: a block, a statement and a loop fail only at their nodes, each
error listing the loops around its node, and a run of a loop's iterations
ends in an error raised in an iteration, with the loop outermost. -/
structure Reporting (fuel : Nat) : Prop where
  block : ∀ ss, Plain (fun _ => True) (Error.RaisedIn (Stmt.enclosedOf ss)) (execBlock fuel ss)
  stmt : ∀ s, Plain (fun _ => True) (Error.RaisedIn s.enclosed) (execStmt fuel s)
  loop : ∀ l, Plain (fun _ => True) (Error.RaisedIn l.toStmt.enclosed) (runLoop fuel l)
  iterate : ∀ l h, Plain (Pass.RaisedIn l) (Error.RaisedIn l.iterationSites) (iterate fuel l h)
  iteration : ∀ l,
    Plain (fun r => ∀ r', r = some r' → FailsWith (Error.RaisedIn l.iterationSites) r')
      (Error.RaisedIn l.iterationSites) (iteration fuel l)
  range : ∀ l v step cur trips n,
    Plain (Pass.RaisedIn l) (Error.RaisedIn l.iterationSites) (iterRange fuel l v step cur trips n)
  each : ∀ l v elems n,
    Plain (Pass.RaisedIn l) (Error.RaisedIn l.iterationSites) (iterEach fuel l v elems n)
  cond : ∀ l c n, l.head = .cond c →
    Plain (Pass.RaisedIn l) (Error.RaisedIn l.iterationSites) (iterWhile fuel l c n)

theorem failsWith_outOfFuel {α : Type} {R : List (Node × List Loop)} :
    FailsWith (Error.RaisedIn R) (.error Error.outOfFuel : Except Error α) :=
  failsWith_error Error.raisedIn_outOfFuel

/-- Out of fuel, every part stops at once. -/
theorem reporting_zero : Reporting 0 where
  block _ := by simp only [execBlock]; exact Plain.throw Error.raisedIn_outOfFuel
  stmt _ := by simp only [execStmt]; exact Plain.throw Error.raisedIn_outOfFuel
  loop _ := by simp only [runLoop]; exact Plain.throw Error.raisedIn_outOfFuel
  iterate _ _ := by simp only [iterate]; exact Plain.pure failsWith_outOfFuel
  iteration _ := by
    simp only [iteration]
    exact Plain.pure fun _ h => by cases h; exact failsWith_outOfFuel
  range _ _ _ _ _ _ := by simp only [iterRange]; exact Plain.pure failsWith_outOfFuel
  each _ _ _ _ := by simp only [iterEach]; exact Plain.pure failsWith_outOfFuel
  cond _ _ _ _ := by simp only [iterWhile]; exact Plain.pure failsWith_outOfFuel

namespace Reporting

variable {f : Nat}

theorem block_succ (ih : Reporting f) (ss : List Stmt) :
    Plain (fun _ => True) (Error.RaisedIn (Stmt.enclosedOf ss)) (execBlock (f + 1) ss) := by
  cases ss with
  | nil => simp only [execBlock]; exact Plain.pure trivial
  | cons s rest =>
    simp only [execBlock]
    refine ((ih.stmt s).widen (by simp [Stmt.enclosedOf])).bind fun sig _ => ?_
    split
    · exact (ih.block rest).widen (by simp [Stmt.enclosedOf])
    · exact Plain.pure trivial

/-- A statement fails at itself or at a node of its expressions, outside
every loop, or inside a block or a loop it holds. -/
theorem stmt_succ (ih : Reporting f) (s : Stmt) :
    Plain (fun _ => True) (Error.RaisedIn s.enclosed) (execStmt (f + 1) s) := by
  cases s with
  | declare p n v =>
    simp only [execStmt]
    exact ((plain_evalExpr v).widen (by simp [Stmt.enclosed, Stmt.nodes, unlooped])).bind
      fun x _ => (Run.plain_declare n x).bind fun _ _ => Plain.pure trivial
  | assign p n v =>
    simp only [execStmt]
    exact ((plain_evalExpr v).widen (by simp [Stmt.enclosed, Stmt.nodes, unlooped])).bind
      fun x _ => (Run.plain_assign n x (Stmt.self_mem_enclosed _)).bind fun _ _ =>
      Plain.pure trivial
  | compound p n op v =>
    simp only [execStmt]
    refine (Run.plain_lookup n).bind fun r _ => ?_
    split
    · exact ((plain_evalExpr v).widen (by simp [Stmt.enclosed, Stmt.nodes, unlooped])).bind
        fun rhs _ => (Run.plain_located (Value.binary_unlocated _ _ _)
          (Stmt.self_mem_enclosed _)).bind fun nv _ =>
        (Run.plain_assign n nv (Stmt.self_mem_enclosed _)).bind fun _ _ => Plain.pure trivial
    · exact Plain.throw (Error.raisedIn_at rfl (Stmt.self_mem_enclosed _))
  | step p n down =>
    simp only [execStmt]
    refine (Run.plain_lookup n).bind fun r _ => ?_
    split
    · exact (Run.plain_located (Value.binary_unlocated _ _ _) (Stmt.self_mem_enclosed _)).bind
        fun nv _ => (Run.plain_assign n nv (Stmt.self_mem_enclosed _)).bind fun _ _ =>
        Plain.pure trivial
    · exact Plain.throw (Error.raisedIn_at rfl (Stmt.self_mem_enclosed _))
  | cond p c t e =>
    simp only [execStmt]
    refine ((plain_evalExpr c).widen (by simp [Stmt.enclosed])).bind fun cv _ => ?_
    split
    · exact (ih.block t).widen fun _ h => by simp [Stmt.enclosed, h]
    · exact (ih.block e).widen fun _ h => by simp [Stmt.enclosed, h]
  | brk p => simp only [execStmt]; exact Plain.pure trivial
  | cont p => simp only [execStmt]; exact Plain.pure trivial
  | ret p v =>
    cases v with
    | none => simp only [execStmt]; exact Plain.pure trivial
    | some v =>
      simp only [execStmt]
      exact ((plain_evalExpr v).widen (by simp [Stmt.enclosed, Stmt.nodes, unlooped])).bind
        fun _ _ => Plain.pure trivial
  | eval p x =>
    simp only [execStmt]
    exact ((plain_evalExpr x).widen (by simp [Stmt.enclosed, Stmt.nodes, unlooped])).bind
      fun _ _ => Plain.pure trivial
  | loop k p h b =>
    -- with no dispatcher the interpreter runs the loop itself
    simp only [execStmt]
    refine Plain.get fun m hm => ?_
    simp only [hm]
    exact ih.loop ⟨k, p, h, b⟩

/-- A loop fails in its header, outside itself, or in an iteration, with
itself outermost. -/
theorem loop_succ (ih : Reporting f) (l : Loop) :
    Plain (fun _ => True) (Error.RaisedIn l.toStmt.enclosed) (runLoop (f + 1) l) := by
  simp only [runLoop]
  refine ((plain_evalHeader l).widen l.headerSites_subset).bind fun h _ =>
    ((Run.plain_within _ (ih.iterate l h)).widen l.iterationSites_subset).bind fun pass hp => ?_
  split
  · exact Plain.pure trivial
  · rename_i e he
    exact Plain.throw ((hp e he).mono l.iterationSites_subset)

theorem iterate_succ (ih : Reporting f) (l : Loop) (h : Header) :
    Plain (Pass.RaisedIn l) (Error.RaisedIn l.iterationSites) (HotLoop.iterate (f + 1) l h) := by
  simp only [HotLoop.iterate]
  split
  · exact ih.range _ _ _ _ _ _
  · exact ih.each _ _ _ _
  · rename_i c hc
    exact ih.cond l c 0 hc

/-- An error leaving the body records the loop. -/
theorem iteration_succ (ih : Reporting f) (l : Loop) :
    Plain (fun r => ∀ r', r = some r' → FailsWith (Error.RaisedIn l.iterationSites) r')
      (Error.RaisedIn l.iterationSites) (HotLoop.iteration (f + 1) l) := by
  simp only [HotLoop.iteration]
  refine (Run.plain_attempt (ih.block l.body)).bind fun r hr => ?_
  split
  · rename_i e
    have he : (e.throughLoop l.frameEntry).RaisedIn l.iterationSites :=
      ((hr e rfl).throughLoop l).mono l.iterationSites_of_body
    exact Plain.pure fun _ h => by cases h; exact failsWith_error he
  all_goals exact Plain.pure fun _ h => by cases h <;> exact failsWith_ok _

theorem range_succ (ih : Reporting f) (l : Loop) (v : String) (step cur : Int64) (trips n : Nat) :
    Plain (Pass.RaisedIn l) (Error.RaisedIn l.iterationSites)
      (iterRange (f + 1) l v step cur trips n) := by
  cases trips with
  | zero => simp only [iterRange]; exact Plain.pure (failsWith_ok _)
  | succ t =>
    simp only [iterRange]
    refine (Run.plain_declare v _).bind fun _ _ => (ih.iteration l).bind fun r hr => ?_
    cases r with
    | some r => exact Plain.pure (hr r rfl)
    | none => exact ih.range l v step _ t _

theorem each_succ (ih : Reporting f) (l : Loop) (v : String) (elems : List Value) (n : Nat) :
    Plain (Pass.RaisedIn l) (Error.RaisedIn l.iterationSites) (iterEach (f + 1) l v elems n) := by
  cases elems with
  | nil => simp only [iterEach]; exact Plain.pure (failsWith_ok _)
  | cons x rest =>
    simp only [iterEach]
    refine (Run.plain_declare v _).bind fun _ _ => (ih.iteration l).bind fun r hr => ?_
    cases r with
    | some r => exact Plain.pure (hr r rfl)
    | none => exact ih.each l v rest _

/-- An error of the condition records the loop as well. -/
theorem cond_succ (ih : Reporting f) (l : Loop) (c : Expr) (n : Nat) (hc : l.head = .cond c) :
    Plain (Pass.RaisedIn l) (Error.RaisedIn l.iterationSites) (iterWhile (f + 1) l c n) := by
  simp only [iterWhile]
  refine (Run.plain_attempt (plain_evalExpr c)).bind fun r hr => ?_
  split
  · rename_i e
    exact Plain.pure
      (failsWith_error (((hr e rfl).throughLoop l).mono (l.iterationSites_of_cond hc)))
  · split
    · exact Plain.pure (failsWith_ok _)
    · refine (ih.iteration l).bind fun r hr => ?_
      cases r with
      | some r => exact Plain.pure (hr r rfl)
      | none => exact ih.cond l c _ hc

theorem succ (ih : Reporting f) : Reporting (f + 1) where
  block := ih.block_succ
  stmt := ih.stmt_succ
  loop := ih.loop_succ
  iterate := ih.iterate_succ
  iteration := ih.iteration_succ
  range := ih.range_succ
  each := ih.each_succ
  cond := ih.cond_succ

end Reporting

/-- With any fuel, the interpreter reports where its errors arose. -/
theorem reporting : ∀ fuel, Reporting fuel
  | 0 => reporting_zero
  | f + 1 => (reporting f).succ

/-! ## Programs -/

/-- A program run without a dispatcher fails only by running out of fuel, or
with a runtime error raised at one of its nodes: a fault with no position of
its own, located at the node, whose loop stack lists the loops around the
node, innermost first and each once. -/
theorem runtime_error_context (m : Machine) (prog : List Stmt) (globals : Bindings) (e : Error)
    (hm : m.dispatcher = none) (he : (m.exec prog globals).1 = .error e) :
    e = Error.outOfFuel ∨ ∃ n ls base, (n, ls) ∈ Stmt.enclosedOf prog ∧ ls.Nodup ∧
      base.located? = none ∧
      e = .located .runtime base n.pos.line n.pos.col "" (ls.map Loop.frameEntry) := by
  -- the program's block runs from its own globals, still without a dispatcher
  have h := (reporting Machine.fuel).block prog
    { m with env := [.scope globals], out := "",
             dispatcher := m.dispatcher.map fun d => { d with log := #[] } } (by simp [hm])
  simp only [Machine.exec, EStateM.run] at he
  split at he
  · cases he
  · rename_i e' m' heq
    cases he
    rw [heq] at h
    rcases h.2 with h | ⟨n, ls, base, hn, hb, rfl⟩
    · exact .inl h
    · exact .inr ⟨n, ls, base, hn, Stmt.enclosedOf_nodup hn, hb, rfl⟩

end HotLoop
