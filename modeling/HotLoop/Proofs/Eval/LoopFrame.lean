import HotLoop.Proofs.Memory.FrameScope
import HotLoop.Eval.Exec
/-!
# HotLoop.Proofs.Eval.LoopFrame

A loop run in a frame of its own behaves as the same loop run in a fresh
child scope of the interpreter. Open a frame for the loop `l`, iterate `l`
in it and close it: the iterations end with the same outcome and count,
print the same text, the write-back reports no error, and afterwards every
name reads as it does after the same iterations in a child scope
(`frame_refines_scope`).

The proof is a simulation. `Layered` relates the two environments while the
body runs: under the scopes that nested loops open (the same in both runs),
the frame stands for the scope (`FrameSim`). `Sim` lifts this to machines,
and `Simulates` to computations: a computation simulates when, started on
related machines, it ends on related machines with the same value or the
same error. Each primitive of the interpreter simulates, the binds compose,
and an induction on the fuel carries the whole interpreter (`fueled`). The
iterations never fail as computations (an error of the body is the pass's
result), and `SimulatesOk` says so along the way.
-/

namespace HotLoop

variable (l : Loop)

/-! ## Related environments -/

/-- `EA` over `aA` runs the body of `l` in a frame and `EB` over `aB` runs it
in a scope; above these sit `k` scopes that nested loops opened, the same
in both. -/
inductive Layered : Nat → Env → Arena → Env → Arena → Prop
  | base {fr : Frame} {EA : Env} {aA : Arena} {b : Bindings} {EB : Env} {aB : Arena} :
      FrameSim l fr EA aA b EB aB → Layered 0 (.frame fr :: EA) aA (.scope b :: EB) aB
  | scope {k : Nat} {EA : Env} {aA : Arena} {EB : Env} {aB : Arena} (q : Bindings) :
      Layered k EA aA EB aB → Layered (k + 1) (.scope q :: EA) aA (.scope q :: EB) aB

variable {l}

namespace Layered

variable {k : Nat} {EA EB : Env} {aA aB : Arena}

/-- Related environments answer every lookup alike. -/
theorem lookup (h : Layered l k EA aA EB aB) (n : String) :
    Env.lookup aA EA n = Env.lookup aB EB n := by
  induction h with
  | base h => exact lookup_sim h n
  | scope q _ ih => rw [Env.lookup_scope, Env.lookup_scope, ih]

/-- Related environments take every assignment alike: both fail, or both
succeed and stay related. -/
theorem assign (h : Layered l k EA aA EB aB) (n : String) (v : Value) :
    (Env.assign aA EA n v = none ∧ Env.assign aB EB n v = none) ∨
    ∃ EA' aA' EB' aB', Env.assign aA EA n v = some (EA', aA') ∧
      Env.assign aB EB n v = some (EB', aB') ∧ Layered l k EA' aA' EB' aB' := by
  induction h with
  | base h =>
    obtain hnone | ⟨fr', EA', aA', b', EB', aB', hA, hB, h'⟩ := assign_sim h n v
    · exact .inl hnone
    · exact .inr ⟨_, _, _, _, hA, hB, .base h'⟩
  | scope q h ih =>
    rw [Env.assign_scope, Env.assign_scope]
    by_cases hq : q.has n = true
    · -- the nested scope binds the name in both runs
      rw [if_pos hq, if_pos hq]
      exact .inr ⟨_, _, _, _, rfl, rfl, .scope _ h⟩
    · rw [if_neg hq, if_neg hq]
      obtain ⟨hA, hB⟩ | ⟨EA', aA', EB', aB', hA, hB, h'⟩ := ih
      · exact .inl ⟨by rw [hA]; rfl, by rw [hB]; rfl⟩
      · exact .inr ⟨_, _, _, _, by rw [hA]; rfl, by rw [hB]; rfl, .scope q h'⟩

/-- A declaration of a name the loop declares keeps the environments
related. -/
theorem declare (h : Layered l k EA aA EB aB) {n : String} (hn : l.DeclOK n) (v : Value) :
    Layered l k (Env.declare aA EA n v).1 (Env.declare aA EA n v).2
      (Env.declare aB EB n v).1 (Env.declare aB EB n v).2 := by
  cases h with
  | base h =>
    obtain ⟨fr', aA', hA, hB, h'⟩ := declare_sim h hn v
    rw [hA, hB]
    exact .base h'
  | scope q h => exact .scope _ h

/-- With no nested scope open, the frame and the scope are innermost. -/
theorem zero_inv (h : Layered l 0 EA aA EB aB) :
    ∃ fr EA' b EB', EA = .frame fr :: EA' ∧ EB = .scope b :: EB' ∧ FrameSim l fr EA' aA b EB' aB := by
  cases h with
  | base h => exact ⟨_, _, _, _, rfl, rfl, h⟩

/-- Dropping the innermost nested scope keeps the environments related. -/
theorem pop (h : Layered l (k + 1) EA aA EB aB) : Layered l k (EA.drop 1) aA (EB.drop 1) aB := by
  cases h with
  | scope q h => exact h

end Layered

/-! ## Related machines and computations -/

variable (l)

/-- Machine `mA` runs the body of `l` in a frame, machine `mB` in a scope,
under `k` nested scopes; both print the same text and neither has a
dispatcher. -/
structure Sim (k : Nat) (mA mB : Machine) : Prop where
  layered : Layered l k mA.env mA.mem.arena mB.env mB.mem.arena
  out : mA.out = mB.out
  plainA : mA.dispatcher = none
  plainB : mB.dispatcher = none

/-- Two outcomes of one computation on related machines: the same value, or
the same error, on machines that are still related. -/
inductive Same {α : Type} (k : Nat) : EStateM.Result Error Machine α →
    EStateM.Result Error Machine α → Prop
  | ok {mA mB : Machine} (a : α) : Sim l k mA mB → Same k (.ok a mA) (.ok a mB)
  | error {mA mB : Machine} (e : Error) : Sim l k mA mB → Same k (.error e mA) (.error e mB)

/-- A computation simulates when, started on related machines, it ends
alike. -/
def Simulates {α : Type} (k : Nat) (x : Run α) : Prop :=
  ∀ mA mB, Sim l k mA mB → Same l k (x mA) (x mB)

/-- A computation simulates without failing: started on related machines it
returns the same value on both, on related machines. -/
def SimulatesOk {α : Type} (k : Nat) (x : Run α) : Prop :=
  ∀ mA mB, Sim l k mA mB → ∃ a mA' mB', x mA = .ok a mA' ∧ x mB = .ok a mB' ∧ Sim l k mA' mB'

variable {l}

section Combinators

variable {k : Nat} {α β : Type}

theorem SimulatesOk.simulates {x : Run α} (hx : SimulatesOk l k x) : Simulates l k x := by
  intro mA mB h
  obtain ⟨a, mA', mB', hA, hB, h'⟩ := hx mA mB h
  rw [hA, hB]
  exact .ok a h'

theorem SimulatesOk.pure (a : α) : SimulatesOk l k (pure a : Run α) :=
  fun mA mB h => ⟨a, mA, mB, rfl, rfl, h⟩

theorem Simulates.pure (a : α) : Simulates l k (pure a : Run α) :=
  (SimulatesOk.pure a).simulates

theorem Simulates.throw (e : Error) : Simulates l k (throw e : Run α) :=
  fun _ _ h => .error e h

theorem Simulates.bind {x : Run α} {f : α → Run β} (hx : Simulates l k x)
    (hf : ∀ a, Simulates l k (f a)) : Simulates l k (x >>= f) := by
  intro mA mB h
  have hxs := hx mA mB h
  show Same l k (EStateM.bind x f mA) (EStateM.bind x f mB)
  unfold EStateM.bind
  generalize x mA = rA at hxs ⊢
  generalize x mB = rB at hxs ⊢
  cases hxs with
  | ok a h' => exact hf a _ _ h'
  | error e h' => exact .error e h'

theorem SimulatesOk.bind {x : Run α} {f : α → Run β} (hx : SimulatesOk l k x)
    (hf : ∀ a, SimulatesOk l k (f a)) : SimulatesOk l k (x >>= f) := by
  intro mA mB h
  obtain ⟨a, mA', mB', hA, hB, h'⟩ := hx mA mB h
  obtain ⟨c, mA'', mB'', hA', hB', h''⟩ := hf a mA' mB' h'
  refine ⟨c, mA'', mB'', ?_, ?_, h''⟩
  · show EStateM.bind x f mA = _
    rw [EStateM.bind, hA]
    exact hA'
  · show EStateM.bind x f mB = _
    rw [EStateM.bind, hB]
    exact hB'

/-- What two alike outcomes are. -/
theorem Same.inv {rA rB : EStateM.Result Error Machine α} (h : Same l k rA rB) :
    (∃ a mA mB, rA = .ok a mA ∧ rB = .ok a mB ∧ Sim l k mA mB) ∨
      ∃ e mA mB, rA = .error e mA ∧ rB = .error e mB ∧ Sim l k mA mB := by
  cases h with
  | ok a h => exact .inl ⟨a, _, _, rfl, rfl, h⟩
  | error e h => exact .inr ⟨e, _, _, rfl, rfl, h⟩

theorem SimulatesOk.lookup (n : String) : SimulatesOk l k (Run.lookup n) :=
  fun mA mB h => ⟨_, mA, mB, rfl, by simp only [Run.lookup, h.layered.lookup n], h⟩

theorem SimulatesOk.declare {n : String} (hn : l.DeclOK n) (v : Value) :
    SimulatesOk l k (Run.declare n v) :=
  fun _ _ h => ⟨(), _, _, rfl, rfl, ⟨h.layered.declare hn v, h.out, h.plainA, h.plainB⟩⟩

theorem Simulates.assign (n : String) (v : Value) (p : Pos) : Simulates l k (Run.assign n v p) := by
  intro mA mB h
  simp only [Run.assign]
  obtain ⟨hA, hB⟩ | ⟨EA', aA', EB', aB', hA, hB, h'⟩ := h.layered.assign n v
  · rw [hA, hB]
    exact .error _ h
  · rw [hA, hB]
    exact .ok () ⟨h', h.out, h.plainA, h.plainB⟩

theorem SimulatesOk.emit (t : String) : SimulatesOk l k (Run.emit t) :=
  fun mA mB h => ⟨(), _, _, rfl, rfl, ⟨h.layered, by simp only [h.out], h.plainA, h.plainB⟩⟩

theorem Simulates.located (p : Pos) (r : Except Error Value) : Simulates l k (Run.located p r) := by
  cases r with
  | ok v => exact Simulates.pure v
  | error e => exact Simulates.throw _

/-- A computation that simulates under one more nested scope simulates once
that scope is opened around it. -/
theorem Simulates.within {x : Run α} (hx : Simulates l (k + 1) x) :
    Simulates l k (Run.within (.scope []) x) := by
  intro mA mB h
  have hpush : Sim l (k + 1) { mA with env := .scope [] :: mA.env }
      { mB with env := .scope [] :: mB.env } :=
    ⟨.scope [] h.layered, h.out, h.plainA, h.plainB⟩
  simp only [Run.within]
  obtain ⟨a, mA', mB', hA, hB, h'⟩ | ⟨e, mA', mB', hA, hB, h'⟩ := (hx _ _ hpush).inv
  · rw [hA, hB]
    exact .ok a ⟨h'.layered.pop, h'.out, h'.plainA, h'.plainB⟩
  · rw [hA, hB]
    exact .error e ⟨h'.layered.pop, h'.out, h'.plainA, h'.plainB⟩

/-- Catching the error of a computation that simulates gives one that
simulates without failing. -/
theorem SimulatesOk.attempt {x : Run α} (hx : Simulates l k x) : SimulatesOk l k (Run.attempt x) := by
  intro mA mB h
  obtain ⟨a, mA', mB', hA, hB, h'⟩ | ⟨e, mA', mB', hA, hB, h'⟩ := (hx mA mB h).inv
  · exact ⟨.ok a, mA', mB', by simp only [Run.attempt, hA], by simp only [Run.attempt, hB], h'⟩
  · exact ⟨.error e, mA', mB', by simp only [Run.attempt, hA], by simp only [Run.attempt, hB], h'⟩

/-- Neither machine has a dispatcher, so reading the machine to look for one
finds none on both. -/
theorem Simulates.plain {g : Machine → Run α} {x : Run α}
    (hg : ∀ m : Machine, m.dispatcher = none → g m = x) (hx : Simulates l k x) :
    Simulates l k (get >>= g) := by
  intro mA mB h
  show Same l k (g mA mA) (g mB mB)
  rw [hg mA h.plainA, hg mB h.plainB]
  exact hx mA mB h

end Combinators

/-! ## Expressions -/

section Expressions

variable {k : Nat}

mutual
/-- Evaluating an expression simulates: it reads names, which the two runs
answer alike, and prints, which they do alike. -/
theorem simulates_evalExpr : (e : Expr) → Simulates l k (evalExpr e)
  | .int _ n => by simp only [evalExpr]; exact Simulates.pure _
  | .float _ x => by simp only [evalExpr]; exact Simulates.pure _
  | .bool _ b => by simp only [evalExpr]; exact Simulates.pure _
  | .array _ es => by
    simp only [evalExpr]
    exact (simulates_evalExprs es).bind fun vs => Simulates.pure _
  | .ident p n => by
    simp only [evalExpr]
    refine (SimulatesOk.lookup n).simulates.bind fun r => ?_
    cases r with
    | some v => exact Simulates.pure v
    | none => exact Simulates.throw _
  | .binary p op x y => by
    simp only [evalExpr]
    refine (simulates_evalExpr x).bind fun a => ?_
    split
    · exact Simulates.pure _
    split
    · exact Simulates.pure _
    exact (simulates_evalExpr y).bind fun b => Simulates.located p _
  | .unary p op x => by
    simp only [evalExpr]
    exact (simulates_evalExpr x).bind fun a => Simulates.located p _
  | .index p x i => by
    simp only [evalExpr]
    exact (simulates_evalExpr x).bind fun a =>
      (simulates_evalExpr i).bind fun j => Simulates.located p _
  | .call p f args => by
    simp only [evalExpr]
    cases Builtin.ofName? f with
    | none => exact Simulates.throw _
    | some b =>
      refine (simulates_evalExprs args).bind fun vs => ?_
      cases b.apply vs with
      | ok r => exact (SimulatesOk.emit r.2).simulates.bind fun _ => Simulates.pure _
      | error e => exact Simulates.throw _

/-- Evaluating a list of expressions simulates. -/
theorem simulates_evalExprs : (es : List Expr) → Simulates l k (evalExprs es)
  | [] => by simp only [evalExprs]; exact Simulates.pure _
  | e :: es => by
    simp only [evalExprs]
    exact (simulates_evalExpr e).bind fun v =>
      (simulates_evalExprs es).bind fun vs => Simulates.pure _
end

/-- Reading a counted loop's bound simulates. -/
theorem simulates_evalBound (e : Expr) : Simulates l k (evalBound e) := by
  unfold evalBound
  refine (simulates_evalExpr e).bind fun v => ?_
  split
  · exact Simulates.pure _
  · exact Simulates.throw _

/-- Evaluating a loop's header simulates. -/
theorem simulates_evalHeader (l' : Loop) : Simulates l k (evalHeader l') := by
  unfold evalHeader
  split
  · -- a counted loop: start, stop, and the step when given
    refine (simulates_evalBound _).bind fun start => (simulates_evalBound _).bind fun stop => ?_
    split
    · exact Simulates.pure _
    · refine (simulates_evalBound _).bind fun step => ?_
      split
      · exact Simulates.pure _
      · exact Simulates.throw _
  · refine (simulates_evalExpr _).bind fun v => ?_
    split
    · exact Simulates.pure _
    · exact Simulates.throw _
  · exact Simulates.pure _

end Expressions

/-! ## Names the body binds -/

/-- Every name that the nodes `ns` bind has a slot of `l` marked declared. -/
def Loop.BindsDeclared (l : Loop) (ns : List Node) : Prop :=
  ∀ n ∈ ns.filterMap Node.binds?, l.DeclOK n

namespace Loop.BindsDeclared

variable {ns ns' : List Node} {p : Pos} {c : Expr} {s : Stmt} {ss t e : List Stmt}

theorem mono (h : l.BindsDeclared ns') (hsub : ns ⊆ ns') : l.BindsDeclared ns := fun n hn => by
  obtain ⟨x, hx, hb⟩ := List.mem_filterMap.mp hn
  exact h n (List.mem_filterMap.mpr ⟨x, hsub hx, hb⟩)

theorem of_mem (h : l.BindsDeclared ns) {x : Node} (hx : x ∈ ns) {n : String}
    (hb : x.binds? = some n) : l.DeclOK n :=
  h n (List.mem_filterMap.mpr ⟨x, hx, hb⟩)

/-- The blocks of a conditional bind no more than the conditional. -/
theorem cond_thn (h : l.BindsDeclared (Stmt.cond p c t e).nodes) : l.BindsDeclared (Stmt.nodesOf t) :=
  h.mono fun x hx => by simp [Stmt.nodes, hx]

theorem cond_els (h : l.BindsDeclared (Stmt.cond p c t e).nodes) : l.BindsDeclared (Stmt.nodesOf e) :=
  h.mono fun x hx => by simp [Stmt.nodes, hx]

theorem head (h : l.BindsDeclared (Stmt.nodesOf (s :: ss))) : l.BindsDeclared s.nodes :=
  h.mono fun x hx => by simp [Stmt.nodesOf, hx]

theorem tail (h : l.BindsDeclared (Stmt.nodesOf (s :: ss))) : l.BindsDeclared (Stmt.nodesOf ss) :=
  h.mono fun x hx => by simp [Stmt.nodesOf, hx]

/-- A loop's body binds no more than the loop. -/
theorem body {l' : Loop} (h : l.BindsDeclared l'.nodes) : l.BindsDeclared (Stmt.nodesOf l'.body) :=
  h.mono fun x hx => by simp [Loop.nodes, Loop.toStmt, Stmt.nodes, hx]

/-- A loop binds its own variable. -/
theorem var {l' : Loop} (h : l.BindsDeclared l'.nodes) {v : String} (hv : l'.var? = some v) :
    l.DeclOK v := by
  refine h.of_mem (x := .stmt l'.toStmt) (by simp [Loop.nodes, Loop.toStmt, Stmt.nodes]) ?_
  obtain ⟨key, pos, head, body⟩ := l'
  cases head with
  | range w _ _ _ => cases hv; rfl
  | each w _ => cases hv; rfl
  | cond _ => cases hv

end Loop.BindsDeclared

/-- A loop declares every name it binds: its variable, its declarations and
the variables of the loops nested in it. -/
theorem Loop.bindsDeclared_nodes (l : Loop) : l.BindsDeclared l.nodes := fun n hn => by
  obtain ⟨s, hs, hd⟩ := Loop.slotOf?_of_declares (Loop.declares_canon l n hn)
  exact ⟨s, hs, hd⟩

/-! ## The interpreter -/

variable (l)

/-- Every part of the interpreter run with `fuel` simulates, as long as the
names it binds are declared by `l`; the iterations simulate without
failing. -/
structure Fueled (fuel : Nat) : Prop where
  block : ∀ k ss, l.BindsDeclared (Stmt.nodesOf ss) → Simulates l k (execBlock fuel ss)
  stmt : ∀ k (s : Stmt), l.BindsDeclared s.nodes → Simulates l k (execStmt fuel s)
  loop : ∀ k (l' : Loop), l.BindsDeclared l'.nodes → Simulates l k (runLoop fuel l')
  iterate : ∀ k (l' : Loop) h, l.BindsDeclared l'.nodes → SimulatesOk l k (iterate fuel l' h)
  iteration : ∀ k (l' : Loop), l.BindsDeclared (Stmt.nodesOf l'.body) →
    SimulatesOk l k (iteration fuel l')
  range : ∀ k (l' : Loop) v step cur trips n, l.DeclOK v →
    l.BindsDeclared (Stmt.nodesOf l'.body) → SimulatesOk l k (iterRange fuel l' v step cur trips n)
  each : ∀ k (l' : Loop) v elems n, l.DeclOK v → l.BindsDeclared (Stmt.nodesOf l'.body) →
    SimulatesOk l k (iterEach fuel l' v elems n)
  cond : ∀ k (l' : Loop) c n, l.BindsDeclared (Stmt.nodesOf l'.body) →
    SimulatesOk l k (iterWhile fuel l' c n)

variable {l}

/-- Out of fuel, every part stops at once, alike in both runs. -/
theorem fueled_zero : Fueled l 0 where
  block _ ss _ := by simp only [execBlock]; exact Simulates.throw _
  stmt _ _ _ := by simp only [execStmt]; exact Simulates.throw _
  loop _ _ _ := by simp only [runLoop]; exact Simulates.throw _
  iterate _ _ _ _ := by simp only [iterate]; exact SimulatesOk.pure _
  iteration _ _ _ := by simp only [iteration]; exact SimulatesOk.pure _
  range _ _ _ _ _ _ _ _ _ := by simp only [iterRange]; exact SimulatesOk.pure _
  each _ _ _ _ _ _ _ := by simp only [iterEach]; exact SimulatesOk.pure _
  cond _ _ _ _ _ := by simp only [iterWhile]; exact SimulatesOk.pure _

namespace Fueled

variable {f : Nat}

/-- A block runs its statements one after the other, each with less fuel. -/
theorem block_succ (ih : Fueled l f) (k : Nat) (ss : List Stmt)
    (hb : l.BindsDeclared (Stmt.nodesOf ss)) : Simulates l k (execBlock (f + 1) ss) := by
  cases ss with
  | nil => simp only [execBlock]; exact Simulates.pure _
  | cons s rest =>
    simp only [execBlock]
    refine (ih.stmt k s hb.head).bind fun sig => ?_
    split
    · exact ih.block k rest hb.tail
    · exact Simulates.pure _

/-- One statement: one case per kind of statement. -/
theorem stmt_succ (ih : Fueled l f) (k : Nat) (s : Stmt) (hb : l.BindsDeclared s.nodes) :
    Simulates l k (execStmt (f + 1) s) := by
  cases s with
  | declare p n v =>
    -- the one place where a name is bound: the frame has a declared slot for it
    have hn : l.DeclOK n := hb.of_mem (x := .stmt (.declare p n v)) (by simp [Stmt.nodes]) rfl
    simp only [execStmt]
    exact (simulates_evalExpr v).bind fun x =>
      (SimulatesOk.declare hn x).simulates.bind fun _ => Simulates.pure _
  | assign p n v =>
    simp only [execStmt]
    exact (simulates_evalExpr v).bind fun x => (Simulates.assign n x p).bind fun _ => Simulates.pure _
  | compound p n op v =>
    simp only [execStmt]
    refine (SimulatesOk.lookup n).simulates.bind fun r => ?_
    split
    · exact (simulates_evalExpr v).bind fun rhs => (Simulates.located p _).bind fun nv =>
        (Simulates.assign n nv p).bind fun _ => Simulates.pure _
    · exact Simulates.throw _
  | step p n down =>
    simp only [execStmt]
    refine (SimulatesOk.lookup n).simulates.bind fun r => ?_
    split
    · exact (Simulates.located p _).bind fun nv =>
        (Simulates.assign n nv p).bind fun _ => Simulates.pure _
    · exact Simulates.throw _
  | cond p c t e =>
    simp only [execStmt]
    refine (simulates_evalExpr c).bind fun cv => ?_
    split
    · exact ih.block k t hb.cond_thn
    · exact ih.block k e hb.cond_els
  | brk p => simp only [execStmt]; exact Simulates.pure _
  | cont p => simp only [execStmt]; exact Simulates.pure _
  | ret p v =>
    cases v with
    | none => simp only [execStmt]; exact Simulates.pure _
    | some v =>
      simp only [execStmt]
      exact (simulates_evalExpr v).bind fun x => Simulates.pure _
  | eval p x =>
    simp only [execStmt]
    exact (simulates_evalExpr x).bind fun _ => Simulates.pure _
  | loop key p h b =>
    -- no dispatcher: a nested loop is run by the interpreter in both runs
    simp only [execStmt]
    exact Simulates.plain (fun m hm => by simp only [hm]) (ih.loop k ⟨key, p, h, b⟩ hb)

/-- A nested loop runs its iterations under one more scope, in both runs. -/
theorem loop_succ (ih : Fueled l f) (k : Nat) (l' : Loop) (hb : l.BindsDeclared l'.nodes) :
    Simulates l k (runLoop (f + 1) l') := by
  simp only [runLoop]
  refine (simulates_evalHeader l').bind fun h =>
    (Simulates.within (ih.iterate (k + 1) l' h hb).simulates).bind fun pass => ?_
  split
  · exact Simulates.pure _
  · exact Simulates.throw _

theorem iterate_succ (ih : Fueled l f) (k : Nat) (l' : Loop) (h : Header)
    (hb : l.BindsDeclared l'.nodes) : SimulatesOk l k (HotLoop.iterate (f + 1) l' h) := by
  simp only [HotLoop.iterate]
  split
  · rename_i v _ _ _ hh
    exact ih.range k l' v _ _ _ 0 (hb.var (by simp [Loop.var?, hh])) hb.body
  · rename_i v _ hh
    exact ih.each k l' v _ 0 (hb.var (by simp [Loop.var?, hh])) hb.body
  · exact ih.cond k l' _ 0 hb.body

/-- An iteration catches the error of the body: it never fails. -/
theorem iteration_succ (ih : Fueled l f) (k : Nat) (l' : Loop)
    (hb : l.BindsDeclared (Stmt.nodesOf l'.body)) : SimulatesOk l k (HotLoop.iteration (f + 1) l') := by
  simp only [HotLoop.iteration]
  refine (SimulatesOk.attempt (ih.block k l'.body hb)).bind fun r => ?_
  split <;> exact SimulatesOk.pure _

theorem range_succ (ih : Fueled l f) (k : Nat) (l' : Loop) (v : String) (step cur : Int64)
    (trips n : Nat) (hv : l.DeclOK v) (hb : l.BindsDeclared (Stmt.nodesOf l'.body)) :
    SimulatesOk l k (iterRange (f + 1) l' v step cur trips n) := by
  cases trips with
  | zero => simp only [iterRange]; exact SimulatesOk.pure _
  | succ t =>
    simp only [iterRange]
    refine (SimulatesOk.declare hv _).bind fun _ => (ih.iteration k l' hb).bind fun r => ?_
    cases r with
    | some r => exact SimulatesOk.pure _
    | none => exact ih.range k l' v step _ t _ hv hb

theorem each_succ (ih : Fueled l f) (k : Nat) (l' : Loop) (v : String) (elems : List Value)
    (n : Nat) (hv : l.DeclOK v) (hb : l.BindsDeclared (Stmt.nodesOf l'.body)) :
    SimulatesOk l k (iterEach (f + 1) l' v elems n) := by
  cases elems with
  | nil => simp only [iterEach]; exact SimulatesOk.pure _
  | cons x rest =>
    simp only [iterEach]
    refine (SimulatesOk.declare hv _).bind fun _ => (ih.iteration k l' hb).bind fun r => ?_
    cases r with
    | some r => exact SimulatesOk.pure _
    | none => exact ih.each k l' v rest _ hv hb

/-- A conditional loop catches the error of its condition too. -/
theorem cond_succ (ih : Fueled l f) (k : Nat) (l' : Loop) (c : Expr) (n : Nat)
    (hb : l.BindsDeclared (Stmt.nodesOf l'.body)) : SimulatesOk l k (iterWhile (f + 1) l' c n) := by
  simp only [iterWhile]
  refine (SimulatesOk.attempt (simulates_evalExpr c)).bind fun r => ?_
  split
  · exact SimulatesOk.pure _
  · split
    · exact SimulatesOk.pure _
    · refine (ih.iteration k l' hb).bind fun r => ?_
      split
      · exact SimulatesOk.pure _
      · exact ih.cond k l' c _ hb

theorem succ (ih : Fueled l f) : Fueled l (f + 1) where
  block := ih.block_succ
  stmt := ih.stmt_succ
  loop := ih.loop_succ
  iterate := ih.iterate_succ
  iteration := ih.iteration_succ
  range := ih.range_succ
  each := ih.each_succ
  cond := ih.cond_succ

end Fueled

/-- With any fuel, the interpreter simulates. -/
theorem fueled : ∀ fuel, Fueled l fuel
  | 0 => fueled_zero
  | f + 1 => (fueled f).succ

/-! ## A loop's frame against a child scope -/

namespace Run

variable {α : Type} {m m' : Machine} {a : α}

theorem openFrame_of_enter {l : Loop} {sh : Shape} {fr : Frame} {mem : Manager}
    (h : m.mem.enter l sh m.env = .ok (fr, mem)) :
    openFrame l sh m = .ok (.ok fr) { m with mem := mem } := by
  simp only [openFrame, h]

theorem inFrame_of_ok {fr fr' : Frame} {x : Run α} {rest : Env}
    (hx : x { m with env := .frame fr :: m.env } = .ok a m') (henv : m'.env = .frame fr' :: rest) :
    inFrame fr x m = .ok (a, fr') { m' with env := rest } := by
  simp only [inFrame, hx, henv]

theorem within_of_ok {layer : Layer} {x : Run α}
    (hx : x { m with env := layer :: m.env } = .ok a m') :
    within layer x m = .ok a { m' with env := m'.env.drop 1 } := by
  simp only [within, hx]

theorem closeFrame_eq (fr : Frame) (m : Machine) :
    closeFrame fr m = .ok (m.mem.exit fr m.env).2.2
      { m with mem := (m.mem.exit fr m.env).1, env := (m.mem.exit fr m.env).2.1 } := rfl

end Run

/-- What a machine needs for a loop to run in a frame of its own: the frames
of its environment are sound and lie below the arena's top, the arena is
well formed, the nesting limit leaves room for one more frame, and loops are
run by the interpreter (no dispatcher). -/
structure Machine.Ready (m : Machine) : Prop where
  plain : m.dispatcher = none
  stacked : m.env.Stacked m.mem.arena.top
  top_le : m.mem.arena.top ≤ m.mem.arena.size
  size_pos : 0 < m.mem.arena.size
  ceiling_le : m.mem.arena.ceiling ≤ 2 ^ 64
  depth_lt : m.mem.depth < m.mem.maxNestingDepth

/-- A loop's frame refines a child scope: opening a frame for `l` succeeds;
iterating `l` in it and closing it ends with the same pass (outcome and
count) as iterating `l` in a fresh child scope, the write-back reports no
error, the printed text is the same, and every name reads the same
afterwards. -/
theorem frame_refines_scope (l : Loop) (h : Header) (fuel : Nat) (m : Machine) (hm : m.Ready) :
    ∃ fr m₁, Run.openFrame l l.shape m = .ok (.ok fr) m₁ ∧
      ∃ pass fr' m₂ m₃ mB, Run.inFrame fr (iterate fuel l h) m₁ = .ok (pass, fr') m₂ ∧
        Run.closeFrame fr' m₂ = .ok none m₃ ∧
        Run.within (.scope []) (iterate fuel l h) m = .ok pass mB ∧
        m₃.out = mB.out ∧ ∀ n, m₃.env.lookup m₃.mem.arena n = mB.env.lookup mB.mem.arena n := by
  obtain ⟨fr, mem, henter, hsim⟩ :=
    enter_sim (l := l) hm.stacked hm.top_le hm.size_pos hm.ceiling_le hm.depth_lt
  refine ⟨fr, _, Run.openFrame_of_enter henter, ?_⟩
  -- the iterations start on related machines: the frame stands for the empty scope
  have hstart : Sim l 0 { m with mem := mem, env := .frame fr :: m.env }
      { m with env := .scope [] :: m.env } :=
    ⟨.base hsim, rfl, hm.plain, hm.plain⟩
  obtain ⟨pass, mA, mB, hA, hB, hend⟩ :=
    (fueled fuel).iterate 0 l h l.bindsDeclared_nodes _ _ hstart
  -- and end on related machines, with the frame and the scope innermost again
  obtain ⟨fr', EA, b, EB, hEA, hEB, hfin⟩ := hend.layered.zero_inv
  obtain ⟨herr, hlk⟩ := exit_sim hfin mA.mem rfl
  -- closing the frame writes back without error
  have hclose := Run.closeFrame_eq fr' { mA with env := EA }
  simp only [herr] at hclose
  refine ⟨pass, fr', _, _, _, Run.inFrame_of_ok hA hEA, hclose, Run.within_of_ok hB, hend.out, ?_⟩
  intro n
  simp only [hEB, List.drop_succ_cons, List.drop_zero]
  exact hlk n

/-- A counted loop adding its variable into `s`, a name bound outside it, on
a fresh manager with a small arena: `s` is copied into the frame, updated
there and written back. -/
theorem frame_refines_scope_sum :
    Machine.Ready (Machine.mk [.scope [("s", .int 0)]] "" (Manager.new { arenaSize := 64 }) none) ∧
    ∃ fr m₁,
      Run.openFrame (Loop.mk 0 Pos.none (.range "i" (.int Pos.none 0) (.int Pos.none 3) none)
          [.compound Pos.none "s" .add (.ident Pos.none "i")])
        (Loop.mk 0 Pos.none (.range "i" (.int Pos.none 0) (.int Pos.none 3) none)
          [.compound Pos.none "s" .add (.ident Pos.none "i")]).shape
        (Machine.mk [.scope [("s", .int 0)]] "" (Manager.new { arenaSize := 64 }) none) = .ok (.ok fr) m₁ ∧
      ∃ pass fr' m₂ m₃ mB,
        Run.inFrame fr (iterate 100
          (Loop.mk 0 Pos.none (.range "i" (.int Pos.none 0) (.int Pos.none 3) none)
          [.compound Pos.none "s" .add (.ident Pos.none "i")])
          { stop := 3 }) m₁ = .ok (pass, fr') m₂ ∧
        Run.closeFrame fr' m₂ = .ok none m₃ ∧
        Run.within (.scope []) (iterate 100
          (Loop.mk 0 Pos.none (.range "i" (.int Pos.none 0) (.int Pos.none 3) none)
          [.compound Pos.none "s" .add (.ident Pos.none "i")])
          { stop := 3 })
          (Machine.mk [.scope [("s", .int 0)]] "" (Manager.new { arenaSize := 64 }) none) = .ok pass mB ∧
        m₃.out = mB.out ∧ ∀ n, m₃.env.lookup m₃.mem.arena n = mB.env.lookup mB.mem.arena n := by
  have hm : Machine.Ready (Machine.mk [.scope [("s", .int 0)]] "" (Manager.new { arenaSize := 64 }) none) :=
    ⟨rfl, trivial, by decide, by decide, by decide, by decide⟩
  exact ⟨hm, frame_refines_scope _ _ 100 _ hm⟩

end HotLoop
