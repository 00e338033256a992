import HotLoop.Proofs.Memory.Store
import HotLoop.Proofs.Compile.Unroll
import HotLoop.Eval.Program
/-!
# HotLoop.Proofs.Eval.Scoped

A big-step reading of plain runs. On a machine without a dispatcher whose
environment is a stack of plain scopes, every expression, statement, block
and loop that succeeds is described by the scopes it starts from, what it
returns and the scopes it leaves.

* `Scopes.lookup`, `Scopes.assign`, `Scopes.declare`: the environment
  operations on a stack of scopes, where the arena plays no part.
* `Run.Returns x bs r bs'`: from the scopes `bs`, `x` returns `r` and leaves
  the scopes `bs'`. `Run.Runs B` says the same of a computation that takes
  fuel, for all fuel from `B` on.
* One rule for each kind of expression and statement the programs use, for
  blocks and for loop headers, each read off the interpreter.
* `Run.runs_counted`, `Run.runs_each`, `Run.runs_while`: the loop rules. An
  invariant indexed by the number of iterations done relates the loop's own
  scope to the scopes around it. Each iteration either keeps it or leaves
  the loop by `break` with the loop's postcondition; a loop that runs out of
  values, or whose condition turns false, ends with the postcondition too.
  The fuel a loop needs grows by one per iteration.
-/

namespace HotLoop

/-! ## Stacks of scopes -/

namespace Scopes

/-- The value of a name in the innermost scope that binds it. -/
@[simp] def lookup : List Bindings → String → Option Value
  | [], _ => none
  | b :: bs, n =>
    match b.get? n with
    | some v => some v
    | none => lookup bs n

/-- Rebind a name in the innermost scope that binds it; `none` when no scope
does. -/
@[simp] def assign : List Bindings → String → Value → Option (List Bindings)
  | [], _, _ => none
  | b :: bs, n, v => if b.has n then some (b.put n v :: bs) else (assign bs n v).map (b :: ·)

/-- Bind a name in the innermost scope. -/
@[simp] def declare : List Bindings → String → Value → List Bindings
  | [], n, v => [[(n, v)]]
  | b :: bs, n, v => b.put n v :: bs

/-- Rebind a name in the innermost scope that binds it; the scopes stay as
they are when none does. -/
def set (bs : List Bindings) (n : String) (v : Value) : List Bindings := (assign bs n v).getD bs

/-- Rebinding a bound name succeeds. -/
theorem assign_eq_set {n : String} (v : Value) :
    ∀ {bs : List Bindings}, (lookup bs n).isSome → assign bs n v = some (set bs n v)
  | [], h => by simp at h
  | b :: bs, h => by
    by_cases hb : b.has n
    · simp only [set, assign, hb, if_true, Option.getD_some]
    · have hnone : b.get? n = none := by
        rw [Bindings.has_eq_isSome] at hb
        simpa using hb
      simp only [lookup, hnone] at h
      simp only [set, assign, hb, Bool.false_eq_true, if_false]
      rw [assign_eq_set v h]
      rfl

end Scopes

namespace Env

/-- The environment of a stack of scopes, innermost first. -/
def ofScopes (bs : List Bindings) : Env := bs.map .scope

variable (a : Arena)

theorem lookup_ofScopes (n : String) : ∀ bs, (ofScopes bs).lookup a n = Scopes.lookup bs n
  | [] => rfl
  | b :: bs => by
    have ih := lookup_ofScopes n bs
    simp only [ofScopes] at ih ⊢
    cases h : b.get? n <;> simp only [List.map_cons, lookup, Scopes.lookup, ih, h]

theorem assign_ofScopes (n : String) (v : Value) : ∀ bs,
    (ofScopes bs).assign a n v = (Scopes.assign bs n v).map fun bs' => (ofScopes bs', a)
  | [] => rfl
  | b :: bs => by
    have ih := assign_ofScopes n v bs
    simp only [ofScopes] at ih ⊢
    by_cases hb : b.has n
    · simp [assign, hb]
    · simp [assign, hb, ih, Option.map_map, Function.comp_def]

theorem declare_ofScopes (n : String) (v : Value) : ∀ bs,
    (ofScopes bs).declare a n v = (ofScopes (Scopes.declare bs n v), a)
  | [] => rfl
  | _ :: _ => rfl

end Env

/-! ## Runs from scopes to scopes -/

namespace Run

variable {α β : Type} {bs bs' bs₁ bs₂ : List Bindings}

/-- Started on any machine without a dispatcher whose environment is the
scopes `bs`, `x` returns `r` and leaves the scopes `bs'`, still without a
dispatcher. -/
def Returns (x : Run α) (bs : List Bindings) (r : α) (bs' : List Bindings) : Prop :=
  ∀ m : Machine, m.dispatcher = none → m.env = Env.ofScopes bs →
    ∃ m', x m = .ok r m' ∧ m'.dispatcher = none ∧ m'.env = Env.ofScopes bs'

theorem Returns.pure (a : α) : Returns (Pure.pure a) bs a bs := fun m hd he => ⟨m, rfl, hd, he⟩

theorem Returns.bind {x : Run α} {f : α → Run β} {a : α} {b : β} (hx : Returns x bs a bs₁)
    (hf : Returns (f a) bs₁ b bs₂) : Returns (x >>= f) bs b bs₂ := by
  intro m hd he
  obtain ⟨m₁, hx₁, hd₁, he₁⟩ := hx m hd he
  obtain ⟨m₂, hf₂, hd₂, he₂⟩ := hf m₁ hd₁ he₁
  refine ⟨m₂, ?_, hd₂, he₂⟩
  show EStateM.bind x f m = _
  rw [EStateM.bind, hx₁]
  exact hf₂

theorem returns_lookup (n : String) : Returns (lookup n) bs (Scopes.lookup bs n) bs := by
  intro m hd he
  refine ⟨m, ?_, hd, he⟩
  show EStateM.Result.ok (m.env.lookup m.mem.arena n) m = _
  rw [he, Env.lookup_ofScopes]

theorem returns_declare (n : String) (v : Value) :
    Returns (declare n v) bs () (Scopes.declare bs n v) := by
  intro m hd he
  refine ⟨_, rfl, hd, ?_⟩
  show (m.env.declare m.mem.arena n v).1 = _
  rw [he, Env.declare_ofScopes]

/-- Assigning a bound name rebinds it where it is bound. -/
theorem returns_assign {n : String} {v : Value} (p : Pos) (h : (Scopes.lookup bs n).isSome) :
    Returns (assign n v p) bs () (Scopes.set bs n v) := by
  intro m hd he
  have hE : m.env.assign m.mem.arena n v = some (Env.ofScopes (Scopes.set bs n v), m.mem.arena) := by
    rw [he, Env.assign_ofScopes, Scopes.assign_eq_set v h]
    rfl
  refine ⟨{ m with env := Env.ofScopes (Scopes.set bs n v), mem := { m.mem with arena := m.mem.arena } },
    ?_, hd, rfl⟩
  unfold assign
  rw [hE]

theorem returns_emit (t : String) : Returns (emit t) bs () bs := fun _ hd he => ⟨_, rfl, hd, he⟩

/-- A run inside an extra scope `b` that leaves it as `b'` leaves the scopes
around it as the run left them. -/
theorem Returns.within {act : Run α} {b b' : Bindings} {a : α}
    (h : Returns act (b :: bs) a (b' :: bs')) : Returns (within (.scope b) act) bs a bs' := by
  intro m hd he
  obtain ⟨m₁, h₁, hd₁, he₁⟩ := h { m with env := .scope b :: m.env } hd (by rw [he]; rfl)
  refine ⟨{ m₁ with env := m₁.env.drop 1 }, ?_, hd₁, by rw [he₁]; rfl⟩
  unfold Run.within
  rw [h₁]

theorem Returns.attempt {x : Run α} {a : α} (h : Returns x bs a bs') :
    Returns (attempt x) bs (.ok a) bs' := by
  intro m hd he
  obtain ⟨m₁, h₁, hd₁, he₁⟩ := h m hd he
  refine ⟨m₁, ?_, hd₁, he₁⟩
  unfold Run.attempt
  rw [h₁]

/-- With every fuel from `B` on, `x` returns `r` from the scopes `bs` and
leaves `bs'`. -/
def Runs (B : Nat) (x : Nat → Run α) (bs : List Bindings) (r : α) (bs' : List Bindings) : Prop :=
  ∀ f, B ≤ f → Returns (x f) bs r bs'

theorem Runs.mono {B B' : Nat} {x : Nat → Run α} {r : α} (h : Runs B x bs r bs') (hB : B ≤ B') :
    Runs B' x bs r bs' :=
  fun f hf => h f (Nat.le_trans hB hf)

/-- A run from scopes equal to `bs₁` to scopes equal to `bs₂`, with more fuel. -/
theorem Runs.conv {B B' : Nat} {x : Nat → Run α} {r : α} {bs₃ bs₄ : List Bindings}
    (h : Runs B x bs₁ r bs₂) (hB : B ≤ B') (h₁ : bs₃ = bs₁) (h₂ : bs₂ = bs₄) :
    Runs B' x bs₃ r bs₄ := by
  subst h₁ h₂
  exact h.mono hB

/-- A computation that needs at least one unit of fuel runs from `B + 1` on
when its form at `f + 1` does from `B` on. -/
theorem Runs.of_succ {B : Nat} {x : Nat → Run α} {r : α}
    (h : ∀ f, B ≤ f → Returns (x (f + 1)) bs r bs') : Runs (B + 1) x bs r bs' := by
  intro f hf
  obtain ⟨f, rfl⟩ : ∃ g, f = g + 1 := ⟨f - 1, by omega⟩
  exact h f (by omega)

end Run

open Run

/-! ## Expressions -/

/-- In the scopes `bs`, `e` evaluates to `v` and changes no scope. -/
def Evals (e : Expr) (bs : List Bindings) (v : Value) : Prop := Returns (evalExpr e) bs v bs

/-- In the scopes `bs`, the expressions `es` evaluate to `vs`. -/
def EvalsAll (es : List Expr) (bs : List Bindings) (vs : List Value) : Prop :=
  Returns (evalExprs es) bs vs bs

namespace Evals

variable {bs : List Bindings} {p : Pos} {x y : Expr} {a b v : Value}

theorem int (n : Int64) : Evals (.int p n) bs (.int n) := by
  unfold Evals
  simp only [evalExpr]
  exact Returns.pure _

theorem bool (c : Bool) : Evals (.bool p c) bs (.bool c) := by
  unfold Evals
  simp only [evalExpr]
  exact Returns.pure _

theorem ident {n : String} (h : Scopes.lookup bs n = some v) : Evals (.ident p n) bs v := by
  unfold Evals
  simp only [evalExpr]
  refine Returns.bind (returns_lookup n) ?_
  rw [h]
  exact Returns.pure v

/-- An operator other than `&&` and `||` evaluates both operands, left to
right, then applies itself. -/
theorem binary {op : Op} (a b : Value) (hop : op ≠ .and ∧ op ≠ .or) (hx : Evals x bs a) (hy : Evals y bs b)
    (hv : Value.binary op a b = .ok v) : Evals (.binary p op x y) bs v := by
  unfold Evals
  simp only [evalExpr]
  refine Returns.bind hx ?_
  rw [if_neg (fun h => hop.1 h.1), if_neg (fun h => hop.2 h.1)]
  refine Returns.bind hy ?_
  rw [hv]
  exact Returns.pure v

/-- A conjunction `&&` with a false left operand is false, and its right operand is not
evaluated. -/
theorem and_false (a : Value) (hx : Evals x bs a) (ha : a.truthy = false) :
    Evals (.binary p .and x y) bs (.bool false) := by
  unfold Evals
  simp only [evalExpr]
  refine Returns.bind hx ?_
  rw [if_pos (by simp [ha])]
  exact Returns.pure _

/-- A conjunction `&&` with a true left operand is the truth of its right operand. -/
theorem and_true (a b : Value) (hx : Evals x bs a) (ha : a.truthy = true) (hy : Evals y bs b) :
    Evals (.binary p .and x y) bs (.bool b.truthy) := by
  unfold Evals
  simp only [evalExpr]
  refine Returns.bind hx ?_
  rw [if_neg (by simp [ha]), if_neg (by simp)]
  refine Returns.bind hy ?_
  simp only [Value.binary, ha, Bool.true_and]
  exact Returns.pure _

theorem unary {op : Op} (a : Value) (hx : Evals x bs a) (hv : Value.unary op a = .ok v) :
    Evals (.unary p op x) bs v := by
  unfold Evals
  simp only [evalExpr]
  refine Returns.bind hx ?_
  rw [hv]
  exact Returns.pure v

theorem array {es : List Expr} {vs : List Value} (h : EvalsAll es bs vs) :
    Evals (.array p es) bs (.array vs) := by
  unfold Evals
  simp only [evalExpr]
  exact Returns.bind h (Returns.pure _)

/-- A call of a builtin evaluates its arguments, then prints what the
builtin prints and returns its value. -/
theorem call {f : String} {args : List Expr} {bi : Builtin} {t : String} (vs : List Value)
    (hf : Builtin.ofName? f = some bi) (hargs : EvalsAll args bs vs) (hv : bi.apply vs = .ok (v, t)) :
    Evals (.call p f args) bs v := by
  unfold Evals
  simp only [evalExpr, hf]
  refine Returns.bind hargs ?_
  rw [hv]
  exact Returns.bind (returns_emit t) (Returns.pure v)

end Evals

namespace EvalsAll

variable {bs : List Bindings}

theorem nil : EvalsAll [] bs [] := by
  unfold EvalsAll
  simp only [evalExprs]
  exact Returns.pure _

theorem cons {e : Expr} {es : List Expr} {v : Value} {vs : List Value} (he : Evals e bs v)
    (hes : EvalsAll es bs vs) : EvalsAll (e :: es) bs (v :: vs) := by
  unfold EvalsAll
  simp only [evalExprs]
  exact Returns.bind he (Returns.bind hes (Returns.pure _))

/-- A list of integer literals evaluates to their values. -/
theorem ints (P : Nat → Pos) (g : Nat → Int64) :
    ∀ l : List Nat, EvalsAll (l.map fun i => .int (P i) (g i)) bs (l.map fun i => .int (g i))
  | [] => nil
  | _ :: l => cons (Evals.int _) (ints P g l)

end EvalsAll

/-! ## Statements and blocks -/

namespace Run

variable {bs bs' bs₁ bs₂ : List Bindings} {B : Nat} {p : Pos} {n : String} {e : Expr} {v : Value}
  {sig : Signal}

theorem runs_declare (he : Evals e bs v) :
    Runs (B + 1) (execStmt · (.declare p n e)) bs .none (Scopes.declare bs n v) :=
  Runs.of_succ fun _ _ => by
    simp only [execStmt]
    exact Returns.bind he (Returns.bind (returns_declare n v) (Returns.pure _))

theorem runs_assign (he : Evals e bs v) (hn : (Scopes.lookup bs n).isSome) :
    Runs (B + 1) (execStmt · (.assign p n e)) bs .none (Scopes.set bs n v) :=
  Runs.of_succ fun _ _ => by
    simp only [execStmt]
    exact Returns.bind he (Returns.bind (returns_assign p hn) (Returns.pure _))

/-- A compound assignment `n op= e` reads `n`, evaluates `e`, and rebinds `n` to the result. -/
theorem runs_compound {op : Op} (cur r : Value) (hn : Scopes.lookup bs n = some cur)
    (he : Evals e bs r) (hv : Value.binary op cur r = .ok v) :
    Runs (B + 1) (execStmt · (.compound p n op e)) bs .none (Scopes.set bs n v) :=
  Runs.of_succ fun _ _ => by
    simp only [execStmt]
    refine Returns.bind (returns_lookup n) ?_
    rw [hn]
    refine Returns.bind he ?_
    rw [hv]
    exact Returns.bind (Returns.pure v) (Returns.bind (returns_assign p (by rw [hn]; rfl)) (Returns.pure _))

/-- An increment `n++` rebinds `n` to its value plus one. -/
theorem runs_incr (cur : Value) (hn : Scopes.lookup bs n = some cur)
    (hv : Value.binary .add cur (.int 1) = .ok v) :
    Runs (B + 1) (execStmt · (.step p n false)) bs .none (Scopes.set bs n v) :=
  Runs.of_succ fun _ _ => by
    simp only [execStmt]
    refine Returns.bind (returns_lookup n) ?_
    rw [hn]
    simp only [Bool.false_eq_true, ↓reduceIte, hv]
    exact Returns.bind (Returns.pure v) (Returns.bind (returns_assign p (by rw [hn]; rfl)) (Returns.pure _))

theorem runs_brk : Runs (B + 1) (execStmt · (.brk p)) bs .brk bs :=
  Runs.of_succ fun _ _ => by
    simp only [execStmt]
    exact Returns.pure _

/-- A conditional runs the branch its condition selects. -/
theorem runs_cond {c : Expr} {thn els : List Stmt} (cv : Value) (hc : Evals c bs cv)
    (hthn : cv.truthy = true → Runs B (execBlock · thn) bs sig bs')
    (hels : cv.truthy = false → Runs B (execBlock · els) bs sig bs') :
    Runs (B + 1) (execStmt · (.cond p c thn els)) bs sig bs' :=
  Runs.of_succ fun f hf => by
    simp only [execStmt]
    refine Returns.bind hc ?_
    cases h : cv.truthy
    · rw [if_neg (by simp)]
      exact hels h f hf
    · rw [if_pos rfl]
      exact hthn h f hf

/-- The empty block goes on, in the scopes it starts from. -/
theorem runs_nil (h : bs = bs') : Runs (B + 1) (execBlock · []) bs .none bs' :=
  Runs.of_succ fun _ _ => by
    simp only [execBlock]
    rw [← h]
    exact Returns.pure _

/-- A statement that goes on, leaving the scopes `bs₁`, is followed by the
rest of its block. -/
theorem runs_cons {s : Stmt} {rest : List Stmt} (bs₁ : List Bindings)
    (hs : Runs B (execStmt · s) bs .none bs₁) (hr : Runs B (execBlock · rest) bs₁ sig bs₂) :
    Runs (B + 1) (execBlock · (s :: rest)) bs sig bs₂ :=
  Runs.of_succ fun f hf => by
    simp only [execBlock]
    exact Returns.bind (hs f hf) (hr f hf)

/-- A statement that signals ends its block with the signal. -/
theorem runs_stop {s : Stmt} {rest : List Stmt} (hs : Runs B (execStmt · s) bs sig bs₁)
    (hsig : sig ≠ .none) : Runs (B + 1) (execBlock · (s :: rest)) bs sig bs₁ :=
  Runs.of_succ fun f hf => by
    simp only [execBlock]
    refine Returns.bind (hs f hf) ?_
    cases sig with
    | none => exact absurd rfl hsig
    | _ => exact Returns.pure _

/-- A loop met without a dispatcher is run by the interpreter. -/
theorem runs_loop {key : Nat} {h : LoopHead} {body : List Stmt}
    (hl : Runs B (runLoop · ⟨key, p, h, body⟩) bs sig bs') :
    Runs (B + 1) (execStmt · (.loop key p h body)) bs sig bs' :=
  Runs.of_succ fun f hf m hd he => by
    obtain ⟨m', h', hd', he'⟩ := hl f hf m hd he
    refine ⟨m', ?_, hd', he'⟩
    simp only [execStmt]
    show EStateM.bind EStateM.get _ m = _
    simp only [EStateM.bind, EStateM.get, hd]
    exact h'

/-! ## Loops -/

theorem returns_evalBound {k : Int64} (h : Evals e bs (.int k)) : Returns (evalBound e) bs k bs := by
  unfold evalBound
  exact Returns.bind h (Returns.pure k)

section Loops

variable {l : Loop} {x : String}

/-- The header of a counted loop with no step: its bounds and the step 1. -/
theorem returns_header_range {a b : Expr} {s t : Int64} (hl : l.head = .range x a b none)
    (ha : Evals a bs (.int s)) (hb : Evals b bs (.int t)) :
    Returns (evalHeader l) bs { start := s, stop := t, step := 1 } bs := by
  unfold evalHeader
  rw [hl]
  exact Returns.bind (returns_evalBound ha) (Returns.bind (returns_evalBound hb) (Returns.pure _))

/-- The header of a collection loop over an array: its elements. -/
theorem returns_header_each {c : Expr} {es : List Value} (hl : l.head = .each x c)
    (hc : Evals c bs (.array es)) : Returns (evalHeader l) bs { elems := es } bs := by
  unfold evalHeader
  rw [hl]
  exact Returns.bind hc (Returns.pure _)

theorem returns_header_cond {c : Expr} (hl : l.head = .cond c) : Returns (evalHeader l) bs {} bs := by
  unfold evalHeader
  rw [hl]
  exact Returns.pure _

/-- A loop runs its iterations in a scope of its own, which it drops. -/
theorem runs_runLoop {hd : Header} {k : Nat} {b' : Bindings} (hh : Returns (evalHeader l) bs hd bs)
    (hit : Runs B (iterate · l hd) ([] :: bs) ⟨.ok sig, k⟩ (b' :: bs')) :
    Runs (B + 1) (runLoop · l) bs sig bs' :=
  Runs.of_succ fun f hf => by
    simp only [runLoop]
    exact Returns.bind hh (Returns.bind (Returns.within (hit f hf)) (Returns.pure sig))

/-- An iteration whose body goes on or continues lets the loop go on. -/
theorem returns_iteration_next {f : Nat} (h : Returns (execBlock f l.body) bs sig bs')
    (hsig : sig = .none ∨ sig = .cont) : Returns (iteration (f + 1) l) bs none bs' := by
  simp only [iteration]
  refine Returns.bind (Returns.attempt h) ?_
  rcases hsig with rfl | rfl <;> exact Returns.pure _

/-- An iteration whose body breaks stops the loop without an error. -/
theorem returns_iteration_brk {f : Nat} (h : Returns (execBlock f l.body) bs .brk bs') :
    Returns (iteration (f + 1) l) bs (some (.ok .none)) bs' := by
  simp only [iteration]
  exact Returns.bind (Returns.attempt h) (Returns.pure _)

/-- What one iteration of a loop does, from the loop's scope `loc` inside
the scopes `outer`: it keeps the invariant `I`, which counts the iterations
done, or it breaks with the postcondition `Q` on the scopes around the loop. -/
def Iterates (B : Nat) (body : List Stmt) (I : Nat → Bindings → List Bindings → Prop)
    (Q : List Bindings → Prop) (k : Nat) (loc : Bindings) (outer : List Bindings) : Prop :=
  ∃ sig loc' outer', Runs B (execBlock · body) (loc :: outer) sig (loc' :: outer') ∧
    ((sig = .none ∨ sig = .cont) ∧ I (k + 1) loc' outer' ∨ sig = .brk ∧ Q outer')

/-- **The collection loop rule**, over the values `g k` for `k` from `k₀`
to `K`: from an iteration count that satisfies the invariant, the loop ends
without error in the postcondition. Induction on the values left. -/
theorem runs_iterEach (g : Nat → Value) (K : Nat) (I : Nat → Bindings → List Bindings → Prop)
    (Q : List Bindings → Prop)
    (hbody : ∀ k loc outer, k < K → I k loc outer → Iterates B l.body I Q k (loc.put x (g k)) outer)
    (hend : ∀ loc outer, I K loc outer → Q outer) :
    ∀ m k, k + m = K → ∀ loc outer n, I k loc outer → ∃ n' loc' outer',
      Runs (B + m + 2) (iterEach · l x ((List.range' k m).map g) n) (loc :: outer)
        ⟨.ok .none, n'⟩ (loc' :: outer') ∧ Q outer'
  | 0, k, hk, loc, outer, n, hI => by
    refine ⟨n, loc, outer, Runs.of_succ fun _ _ => ?_, hend loc outer (by rw [← hk]; exact hI)⟩
    simp only [List.range'_zero, List.map_nil, iterEach]
    exact Returns.pure _
  | m + 1, k, hk, loc, outer, n, hI => by
    obtain ⟨sig, loc₁, outer₁, hrun, hnext | ⟨rfl, hQ⟩⟩ := hbody k loc outer (by omega) hI
    · -- the iteration goes on: the rest of the loop, from the next count
      obtain ⟨n', loc', outer', hrest, hQ⟩ :=
        runs_iterEach g K I Q hbody hend m (k + 1) (by omega) loc₁ outer₁ (n + 1) hnext.2
      refine ⟨n', loc', outer', Runs.of_succ fun f hf => ?_, hQ⟩
      simp only [List.range'_succ, List.map_cons, iterEach]
      refine Returns.bind (returns_declare x (g k)) ?_
      obtain ⟨f, rfl⟩ : ∃ g, f = g + 1 := ⟨f - 1, by omega⟩
      exact Returns.bind (returns_iteration_next (hrun f (by omega)) hnext.1) (hrest (f + 1) (by omega))
    · -- the iteration breaks: the loop ends there
      refine ⟨n + 1, loc₁, outer₁, Runs.of_succ fun f hf => ?_, hQ⟩
      simp only [List.range'_succ, List.map_cons, iterEach]
      refine Returns.bind (returns_declare x (g k)) ?_
      obtain ⟨f, rfl⟩ : ∃ g, f = g + 1 := ⟨f - 1, by omega⟩
      exact Returns.bind (returns_iteration_brk (hrun f (by omega))) (Returns.pure _)

/-- What a conditional loop does at iteration count `k`, from its scope
`loc` inside `outer`: its condition evaluates, and is false only where the
postcondition holds; where it is true, an iteration is left and the body
iterates. -/
def Tests (B : Nat) (c : Expr) (body : List Stmt) (K : Nat) (I : Nat → Bindings → List Bindings → Prop)
    (Q : List Bindings → Prop) (k : Nat) (loc : Bindings) (outer : List Bindings) : Prop :=
  ∃ cv, Evals c (loc :: outer) cv ∧ (cv.truthy = false → Q outer) ∧
    (cv.truthy = true → k < K ∧ Iterates B body I Q k loc outer)

/-- **The conditional loop rule**: with an invariant that bounds the
iterations by `K`, the loop ends without error in the postcondition.
Induction on the iterations left. -/
theorem runs_iterWhile {c : Expr} (K : Nat) (I : Nat → Bindings → List Bindings → Prop)
    (Q : List Bindings → Prop) (hstep : ∀ k loc outer, I k loc outer → Tests B c l.body K I Q k loc outer) :
    ∀ m k, k + m = K → ∀ loc outer n, I k loc outer → ∃ n' loc' outer',
      Runs (B + m + 2) (iterWhile · l c n) (loc :: outer) ⟨.ok .none, n'⟩ (loc' :: outer') ∧ Q outer'
  | m, k, hk, loc, outer, n, hI => by
    obtain ⟨cv, hc, hfalse, htrue⟩ := hstep k loc outer hI
    cases hcv : cv.truthy
    · -- the condition is false: the loop ends
      refine ⟨n, loc, outer, Runs.of_succ fun _ _ => ?_, hfalse hcv⟩
      simp only [iterWhile]
      refine Returns.bind (Returns.attempt hc) ?_
      simp only [hcv, Bool.not_false, ↓reduceIte]
      exact Returns.pure _
    · obtain ⟨hkK, sig, loc₁, outer₁, hrun, hnext | ⟨rfl, hQ⟩⟩ := htrue hcv
      · -- an iteration that goes on leaves one iteration fewer
        obtain ⟨m, rfl⟩ : ∃ m', m = m' + 1 := ⟨m - 1, by omega⟩
        obtain ⟨n', loc', outer', hrest, hQ⟩ :=
          runs_iterWhile K I Q hstep m (k + 1) (by omega) loc₁ outer₁ (n + 1) hnext.2
        refine ⟨n', loc', outer', Runs.of_succ fun f hf => ?_, hQ⟩
        simp only [iterWhile]
        refine Returns.bind (Returns.attempt hc) ?_
        simp only [hcv, Bool.not_true, Bool.false_eq_true, ↓reduceIte]
        obtain ⟨f, rfl⟩ : ∃ g, f = g + 1 := ⟨f - 1, by omega⟩
        exact Returns.bind (returns_iteration_next (hrun f (by omega)) hnext.1) (hrest (f + 1) (by omega))
      · refine ⟨n + 1, loc₁, outer₁, Runs.of_succ fun f hf => ?_, hQ⟩
        simp only [iterWhile]
        refine Returns.bind (Returns.attempt hc) ?_
        simp only [hcv, Bool.not_true, Bool.false_eq_true, ↓reduceIte]
        obtain ⟨f, rfl⟩ : ∃ g, f = g + 1 := ⟨f - 1, by omega⟩
        exact Returns.bind (returns_iteration_brk (hrun f (by omega))) (Returns.pure _)
termination_by m => m

/-- A counted loop with step 1 runs once for each integer from its start up
to its stop. -/
theorem trips_step_one (s t : Int64) :
    Header.trips { start := s, stop := t, step := 1 } = (t.toInt - s.toInt).toNat := by
  have h1 : (1 : Int64).toInt = 1 := rfl
  refine eq_of_forall_lt_iff fun k => ?_
  rw [Header.lt_trips_iff]
  simp only [h1]
  omega

/-- **Counted loops with step 1.** The loop from `s` to `t` runs its body
with the counter at `s + k` for the iterations `k` before `T`, the number
of integers from `s` up to `t`. -/
theorem runs_counted {key : Nat} {a b : Expr} {body : List Stmt} {s t : Int64} (T : Nat)
    (ha : Evals a bs (.int s)) (hb : Evals b bs (.int t)) (hT : (t.toInt - s.toInt).toNat = T)
    (I : Nat → Bindings → List Bindings → Prop) (Q : List Bindings → Prop) (h0 : I 0 [] bs)
    (hbody : ∀ k loc outer, k < T → I k loc outer →
      Iterates B body I Q k (loc.put x (.int (s + Int64.ofNat k))) outer)
    (hend : ∀ loc outer, I T loc outer → Q outer) :
    ∃ bs', Runs (B + T + 5) (execStmt · (.loop key p (.range x a b none) body)) bs .none bs' ∧
      Q bs' := by
  obtain ⟨n', loc', outer', hrun, hQ⟩ := runs_iterEach (l := ⟨key, p, .range x a b none, body⟩)
    (fun k => .int (s + Int64.ofNat k)) T I Q hbody hend T 0 (by omega) [] bs 0 h0
  -- the counter takes the values `s + k * 1`: the collection loop over them
  have hvals : (stepValues 1 s T).map Value.int = (List.range' 0 T).map fun k => .int (s + Int64.ofNat k) := by
    rw [stepValues_eq_map, List.map_map, List.range_eq_range']
    simp [Function.comp_def]
  have hit : Runs (B + T + 3) (iterate · ⟨key, p, .range x a b none, body⟩ { start := s, stop := t, step := 1 })
      ([] :: bs) ⟨.ok .none, n'⟩ (loc' :: outer') := Runs.of_succ fun f hf => by
    simp only [iterate, iterRange_eq_iterEach, trips_step_one, hT, hvals]
    exact hrun f hf
  exact ⟨outer', runs_loop (runs_runLoop (returns_header_range rfl ha hb) hit), hQ⟩

/-- **Collection loops** over the values `g k` for `k < K`. -/
theorem runs_each {key : Nat} {c : Expr} {body : List Stmt} (g : Nat → Value) (K : Nat)
    (hc : Evals c bs (.array ((List.range K).map g)))
    (I : Nat → Bindings → List Bindings → Prop) (Q : List Bindings → Prop) (h0 : I 0 [] bs)
    (hbody : ∀ k loc outer, k < K → I k loc outer → Iterates B body I Q k (loc.put x (g k)) outer)
    (hend : ∀ loc outer, I K loc outer → Q outer) :
    ∃ bs', Runs (B + K + 5) (execStmt · (.loop key p (.each x c) body)) bs .none bs' ∧ Q bs' := by
  obtain ⟨n', loc', outer', hrun, hQ⟩ := runs_iterEach (l := ⟨key, p, .each x c, body⟩)
    g K I Q hbody hend K 0 (by omega) [] bs 0 h0
  have hit : Runs (B + K + 3) (iterate · ⟨key, p, .each x c, body⟩ { elems := (List.range K).map g })
      ([] :: bs) ⟨.ok .none, n'⟩ (loc' :: outer') := Runs.of_succ fun f hf => by
    simp only [iterate, List.range_eq_range']
    exact hrun f hf
  exact ⟨outer', runs_loop (runs_runLoop (returns_header_each rfl hc) hit), hQ⟩

/-- **Conditional loops**, with an invariant that bounds the iterations by
`K`. -/
theorem runs_while {key : Nat} {c : Expr} {body : List Stmt} (K : Nat)
    (I : Nat → Bindings → List Bindings → Prop) (Q : List Bindings → Prop) (h0 : I 0 [] bs)
    (hstep : ∀ k loc outer, I k loc outer → Tests B c body K I Q k loc outer) :
    ∃ bs', Runs (B + K + 5) (execStmt · (.loop key p (.cond c) body)) bs .none bs' ∧ Q bs' := by
  obtain ⟨n', loc', outer', hrun, hQ⟩ := runs_iterWhile (l := ⟨key, p, .cond c, body⟩)
    K I Q hstep K 0 (by omega) [] bs 0 h0
  have hit : Runs (B + K + 3) (iterate · ⟨key, p, .cond c, body⟩ {}) ([] :: bs) ⟨.ok .none, n'⟩
      (loc' :: outer') := Runs.of_succ fun f hf => by
    simp only [iterate]
    exact hrun f hf
  exact ⟨outer', runs_loop (runs_runLoop (returns_header_cond rfl) hit), hQ⟩

/-! ### Loops whose iterations all go on

Most loops never break: each iteration takes the scopes around the loop from
`S k` to `S (k + 1)`, and the loop's own scope stays of a form `L`. -/

/-- A counted loop whose iterations all go on. -/
theorem runs_counted_steps {key : Nat} {a b : Expr} {body : List Stmt} {s t : Int64} (T : Nat)
    (L : Bindings → Prop) (S : Nat → List Bindings) (ha : Evals a (S 0) (.int s))
    (hb : Evals b (S 0) (.int t)) (hT : (t.toInt - s.toInt).toNat = T) (hL : L [])
    (hbody : ∀ k < T, ∀ loc, L loc → ∃ loc', L loc' ∧
      Runs B (execBlock · body) (loc.put x (.int (s + Int64.ofNat k)) :: S k) .none (loc' :: S (k + 1))) :
    Runs (B + T + 5) (execStmt · (.loop key p (.range x a b none) body)) (S 0) .none (S T) := by
  obtain ⟨bs, hloop, rfl⟩ := runs_counted T ha hb hT (fun k loc outer => L loc ∧ outer = S k)
    (fun outer => outer = S T) ⟨hL, rfl⟩ (by
      rintro k loc outer hk ⟨hloc, rfl⟩
      obtain ⟨loc', hloc', hrun⟩ := hbody k hk loc hloc
      exact ⟨.none, loc', S (k + 1), hrun, .inl ⟨.inl rfl, hloc', rfl⟩⟩) (fun _ _ h => h.2)
  exact hloop

/-- A counted loop whose body only reads its counter from the loop's scope. -/
theorem runs_counted_reads {key : Nat} {a b : Expr} {body : List Stmt} {s t : Int64} (T : Nat)
    (S : Nat → List Bindings) (ha : Evals a (S 0) (.int s)) (hb : Evals b (S 0) (.int t))
    (hT : (t.toInt - s.toInt).toNat = T)
    (hbody : ∀ k < T, Runs B (execBlock · body) ([(x, .int (s + Int64.ofNat k))] :: S k) .none
      ([(x, .int (s + Int64.ofNat k))] :: S (k + 1))) :
    Runs (B + T + 5) (execStmt · (.loop key p (.range x a b none) body)) (S 0) .none (S T) :=
  runs_counted_steps T (fun loc => loc = [] ∨ ∃ v, loc = [(x, v)]) S ha hb hT (.inl rfl)
    fun k hk loc hloc => by
      have hput : loc.put x (.int (s + Int64.ofNat k)) = [(x, .int (s + Int64.ofNat k))] := by
        rcases hloc with rfl | ⟨v, rfl⟩ <;> simp [Bindings.put]
      rw [hput]
      exact ⟨_, .inr ⟨_, rfl⟩, hbody k hk⟩

/-- A collection loop whose body only reads its variable from the loop's
scope. -/
theorem runs_each_reads {key : Nat} {c : Expr} {body : List Stmt} (g : Nat → Value) (K : Nat)
    (S : Nat → List Bindings) (hc : Evals c (S 0) (.array ((List.range K).map g)))
    (hbody : ∀ k < K, Runs B (execBlock · body) ([(x, g k)] :: S k) .none ([(x, g k)] :: S (k + 1))) :
    Runs (B + K + 5) (execStmt · (.loop key p (.each x c) body)) (S 0) .none (S K) := by
  obtain ⟨bs, hloop, rfl⟩ := runs_each g K hc
    (fun k loc outer => (loc = [] ∨ ∃ v, loc = [(x, v)]) ∧ outer = S k) (fun outer => outer = S K)
    ⟨.inl rfl, rfl⟩ (by
      rintro k loc outer hk ⟨hloc, rfl⟩
      have hput : loc.put x (g k) = [(x, g k)] := by
        rcases hloc with rfl | ⟨v, rfl⟩ <;> simp [Bindings.put]
      rw [hput]
      exact ⟨.none, _, S (k + 1), hbody k hk, .inl ⟨.inl rfl, .inr ⟨_, rfl⟩, rfl⟩⟩) (fun _ _ h => h.2)
  exact hloop

/-- A conditional loop whose condition holds for exactly the first `K`
iterations, all of which go on. -/
theorem runs_while_steps {key : Nat} {c : Expr} {body : List Stmt} (K : Nat) (L : Bindings → Prop)
    (S : Nat → List Bindings) (hL : L [])
    (hcond : ∀ k ≤ K, ∀ loc, L loc → ∃ cv, Evals c (loc :: S k) cv ∧ cv.truthy = decide (k < K))
    (hbody : ∀ k < K, ∀ loc, L loc → ∃ loc', L loc' ∧
      Runs B (execBlock · body) (loc :: S k) .none (loc' :: S (k + 1))) :
    Runs (B + K + 5) (execStmt · (.loop key p (.cond c) body)) (S 0) .none (S K) := by
  obtain ⟨bs, hloop, rfl⟩ := runs_while K (fun k loc outer => L loc ∧ outer = S k ∧ k ≤ K)
    (fun outer => outer = S K) ⟨hL, rfl, Nat.zero_le K⟩ (by
      rintro k loc outer ⟨hloc, rfl, hk⟩
      obtain ⟨cv, hc, hcv⟩ := hcond k hk loc hloc
      refine ⟨cv, hc, fun hf => ?_, fun ht => ?_⟩
      · -- a false condition means all `K` iterations are done
        have hKk : ¬k < K := by simpa [hf] using hcv
        rw [Nat.le_antisymm hk (Nat.le_of_not_lt hKk)]
      · have hkK : k < K := by simpa [ht] using hcv.symm
        obtain ⟨loc', hloc', hrun⟩ := hbody k hkK loc hloc
        exact ⟨hkK, .none, loc', S (k + 1), hrun, .inl ⟨.inl rfl, hloc', rfl, hkK⟩⟩)
  exact hloop

/-- A conditional loop whose own scope stays empty. -/
theorem runs_while_empty {key : Nat} {c : Expr} {body : List Stmt} (K : Nat) (S : Nat → List Bindings)
    (hcond : ∀ k ≤ K, ∃ cv, Evals c ([] :: S k) cv ∧ cv.truthy = decide (k < K))
    (hbody : ∀ k < K, Runs B (execBlock · body) ([] :: S k) .none ([] :: S (k + 1))) :
    Runs (B + K + 5) (execStmt · (.loop key p (.cond c) body)) (S 0) .none (S K) :=
  runs_while_steps K (· = []) S rfl (fun k hk _ hloc => hloc ▸ hcond k hk)
    fun k hk _ hloc => ⟨[], rfl, hloc ▸ hbody k hk⟩

end Loops

end Run

open Run

/-- A program that runs from empty globals to the globals `G`, needing no
more fuel than a whole run has, ends without error on a plain machine and
leaves `G`. -/
theorem Machine.exec_of_runs {prog : List Stmt} {B : Nat} {sig : Signal} {G : Bindings}
    (h : Runs B (execBlock · prog) [[]] sig [G]) (hB : B ≤ Machine.fuel) (o : MemoryOptions) :
    ∃ m, (Machine.plain o).exec prog [] = (.ok sig, m) ∧ m.globals = G := by
  obtain ⟨m, hm, -, he⟩ := h Machine.fuel hB
    { Machine.plain o with env := [.scope []], out := "", dispatcher := none } rfl rfl
  have hm' : execBlock Machine.fuel prog { env := [.scope []], mem := Manager.new o } = .ok sig m := hm
  refine ⟨m, ?_, ?_⟩
  · simp only [Machine.exec, EStateM.run, Machine.plain, Option.map]
    rw [hm']
  · rw [Machine.globals, he]
    rfl

end HotLoop
