import HotLoop.Plan.Select
/-!
# HotLoop.Compile.Code

Compiled loops. Compiling a loop turns its body into a tree of code that no
longer mentions variable names or source positions: a variable is its
canonical index and slot, a node is its pre-order index in the loop. The
same code therefore runs any loop of the same shape, whatever its names and
positions; the names and positions of the loop actually running are looked
up when an error has to be reported.

A selection's strategies show in the code: hoisted expressions are
evaluated once before the first iteration and read back as values (or as the
error their evaluation raised), multiplications by constants become sums of
shifts when their operand is an integer, integer reductions accumulate in
lanes, and a conditional with an unlikely `then` branch tests the negation.

Compilation refuses bodies with calls, and nested loops that declare a name
also used outside them: the compiled body keeps the variables of all its
nested loops in one frame.
-/

namespace HotLoop

/-- Compiled expressions. `node` is the pre-order index that errors report. -/
inductive Calc where
  | const (v : Value)
  /-- The value or error of the `k`-th hoisted expression. -/
  | hoisted (k : Nat)
  | array (elems : List Calc)
  /-- Canonical variable `index`: its slot when set, else the enclosing
  environment. -/
  | var (index : Nat) (slot : Option Nat) (node : Nat)
  /-- `&&` (`short = false`) or `||` (`short = true`). -/
  | logic (short : Bool) (op : Op) (x y : Calc) (node : Nat)
  /-- A multiplication by a constant whose bits are `shifts`; the operand
  is the right one when the left one is the literal. -/
  | scaled (op : Op) (shifts : List Nat) (litLeft : Bool) (x y : Calc) (node : Nat)
  | binary (op : Op) (x y : Calc) (node : Nat)
  | unary (op : Op) (x : Calc) (node : Nat)
  | index (x i : Calc) (node : Nat)
  deriving Inhabited, Repr

/-- A counted loop bound and the node it reports. -/
structure Bound where
  value : Calc
  node : Nat
  deriving Inhabited, Repr

/-- Headers of loops nested in a compiled body. -/
inductive InnerHead where
  | range (start stop : Bound) (step : Option Bound) (counter : Nat)
  | each (coll : Calc) (slot : Nat)
  | cond (c : Calc)
  deriving Inhabited, Repr

/-- Compiled assignments to a variable. -/
inductive Update where
  /-- Assignment to canonical variable `index`. -/
  | store (index : Nat) (slot : Option Nat) (node : Nat) (v : Calc)
  /-- `x op= e`, by shifts when `shifts` is given and `x` holds an integer. -/
  | compound (index : Nat) (slot : Option Nat) (node : Nat) (op : Op) (rhs : Calc)
      (shifts : Option (List Nat))
  deriving Inhabited, Repr

/-- Compiled statements. -/
inductive Code where
  /-- `let`: store into the slot. -/
  | put (slot : Nat) (v : Calc)
  /-- `x = e` or `x op= e`. -/
  | update (u : Update)
  /-- `x++` or `x--`. -/
  | bump (index : Nat) (slot : Nat) (node : Nat) (down : Bool)
  /-- A conditional; `unlikely` tests the negated condition first. -/
  | branch (c : Calc) (thn els : List Code) (unlikely : Bool)
  | brk
  | cont
  | ret (v : Option Calc)
  | eval (x : Calc)
  /-- Reduction `j` into `slot` through its lane, with the sequential update
  `seq` once the lane is closed. -/
  | reduce (j : Nat) (slot : Nat) (op : Op) (contrib : Calc) (node : Nat) (accLeft : Bool)
      (seq : Update)
  /-- A nested loop at pre-order index `node`; `locals` are the slots of the
  names it declares, cleared when it ends. -/
  | nested (node : Nat) (locals : List Nat) (head : InnerHead) (body : List Code)
  deriving Inhabited, Repr

/-- How the compiled loop itself iterates. -/
inductive OuterHead where
  | range (counter : Nat) (unroll : Nat)
  | each (slot : Nat)
  | cond (c : Calc)
  deriving Inhabited, Repr

/-- A compiled loop body with its prologue. -/
structure Entry where
  hoisted : List Calc
  head : OuterHead
  /-- Slot and operator of every reduction, for the lanes. -/
  lanes : List (Nat × Op)
  width : Nat
  body : List Code
  deriving Inhabited, Repr

/-- The identity of a compiled loop: its shape's hash, kind, tier and
strategies. Loops that differ only in names and positions share it. -/
structure Fingerprint where
  hash : UInt64
  kind : LoopKind
  tier : Tier
  strategies : StrategySet
  deriving DecidableEq, Repr, Inhabited

/-- `hash/kind/tier/strategies`. -/
def Fingerprint.text (f : Fingerprint) : String :=
  hex16 f.hash ++ "/" ++ f.kind.name ++ "/" ++ f.tier.name ++ "/" ++ f.strategies.text

/-- The fingerprint of a loop of shape `shape` compiled at `tier` with
`set`. -/
def Fingerprint.of (shape : Shape) (tier : Tier) (set : StrategySet) : Fingerprint :=
  ⟨shape.hash, shape.kind, tier, set⟩

/-- The errors compilation reports. -/
def Error.unsupported (what : String) : Error := .detailed .unsupported what

/-- A defect of the compiler: a name the shape does not know. -/
def Error.missingName (n : String) : Error :=
  .detailed .internal ("jit: name missing from shape: " ++ n)

/-- How the nodes of an expression are told apart: by the key of the loop
they belong to and their pre-order index there. Nodes of the compiled loop
report their index; nodes of an expression taken from a plan made for
another loop report node 0, the loop itself. -/
structure Origin where
  key : Nat
  exact : Bool
  deriving Inhabited

/-- The node an origin reports for pre-order index `i`. -/
def Origin.node (o : Origin) (i : Nat) : Nat := if o.exact then i else 0

/-- The compilation context. -/
structure Compiler where
  shape : Shape
  sel : Selection
  key : Nat

namespace Compiler

/-- Canonical index and slot of a name. -/
def slotOf (c : Compiler) (n : String) : Except Error (Nat × Int) :=
  match c.shape.index? n with
  | some i => .ok (i, c.shape.slot i)
  | none => .error (Error.missingName n)

/-- A slot number when promoted. -/
def promoted (s : Int) : Option Nat := if s ≥ 0 then some s.toNat else none

mutual
/-- Compile an expression at pre-order index `i`. With `hoisting` set, an
expression that the plan hoists is read from its hoisted value; its operands
are read so whatever `hoisting` says. -/
def exprAt (c : Compiler) (o : Origin) (hoisting : Bool) (i : Nat) (e : Expr) : Except Error Calc :=
  match (if hoisting then c.sel.hoistIndex? o.key i else none) with
  | some k => .ok (.hoisted k)
  | none =>
    match e with
    | .int _ n => .ok (.const (.int n))
    | .float _ x => .ok (.const (.float x))
    | .bool _ b => .ok (.const (.bool b))
    | .array _ es => do return .array (← exprs c o (i + 1) es)
    | .ident _ n => do
      let (k, s) ← c.slotOf n
      return .var k (promoted s) (o.node i)
    | .binary _ op x y => do
      let cx ← exprAt c o true (i + 1) x
      let cy ← exprAt c o true (i + 1 + x.size) y
      if op = .and ∨ op = .or then return .logic (op = .or) op cx cy (o.node i)
      match c.sel.shiftsAt? o.key i with
      | some sh => return .scaled op sh (x matches .int ..) cx cy (o.node i)
      | none => return .binary op cx cy (o.node i)
    | .unary _ op x => do return .unary op (← exprAt c o true (i + 1) x) (o.node i)
    | .index _ x k => do
      let cx ← exprAt c o true (i + 1) x
      let ck ← exprAt c o true (i + 1 + x.size) k
      return .index cx ck (o.node i)
    | .call .. => .error (Error.unsupported "expression call")

/-- Compile expressions laid out one after the other from index `i`. -/
def exprs (c : Compiler) (o : Origin) (i : Nat) : List Expr → Except Error (List Calc)
  | [] => .ok []
  | e :: es => do
    let ce ← exprAt c o true i e
    let ces ← exprs c o (i + e.size) es
    return ce :: ces
end

/-- Compile an expression at pre-order index `i`, reading hoisted values. -/
def expr (c : Compiler) (o : Origin) (i : Nat) (e : Expr) : Except Error Calc := c.exprAt o true i e

/-- Compile an expression at pre-order index `i` without reading hoisted
values at its root. -/
def exprNoHoist (c : Compiler) (o : Origin) (i : Nat) (e : Expr) : Except Error Calc := c.exprAt o false i e

/-- An expression is read from its hoisted value where the plan hoists it,
and compiled otherwise. -/
theorem expr_eq (c : Compiler) (o : Origin) (i : Nat) (e : Expr) :
    c.expr o i e = match c.sel.hoistIndex? o.key i with
      | some k => .ok (.hoisted k)
      | none => c.exprNoHoist o i e := by
  rw [expr, exprNoHoist, exprAt.eq_def, exprAt.eq_def]
  simp only [if_true, Bool.false_eq_true, if_false]

section NoHoist

variable (c : Compiler) (o : Origin) (i : Nat) (p : Pos)

@[simp] theorem exprNoHoist_int (n : Int64) : c.exprNoHoist o i (.int p n) = .ok (.const (.int n)) := rfl
@[simp] theorem exprNoHoist_float (x : Double) : c.exprNoHoist o i (.float p x) = .ok (.const (.float x)) := rfl
@[simp] theorem exprNoHoist_bool (b : Bool) : c.exprNoHoist o i (.bool p b) = .ok (.const (.bool b)) := rfl

theorem exprNoHoist_array (es : List Expr) :
    c.exprNoHoist o i (.array p es) = do return .array (← c.exprs o (i + 1) es) := rfl

theorem exprNoHoist_ident (n : String) :
    c.exprNoHoist o i (.ident p n) = do
      let (k, s) ← c.slotOf n
      return .var k (promoted s) (o.node i) := rfl

theorem exprNoHoist_binary (op : Op) (x y : Expr) :
    c.exprNoHoist o i (.binary p op x y) = do
      let cx ← c.expr o (i + 1) x
      let cy ← c.expr o (i + 1 + x.size) y
      if op = .and ∨ op = .or then return .logic (op = .or) op cx cy (o.node i)
      match c.sel.shiftsAt? o.key i with
      | some sh => return .scaled op sh (x matches .int ..) cx cy (o.node i)
      | none => return .binary op cx cy (o.node i) := rfl

theorem exprNoHoist_unary (op : Op) (x : Expr) :
    c.exprNoHoist o i (.unary p op x) = do return .unary op (← c.expr o (i + 1) x) (o.node i) := rfl

theorem exprNoHoist_index (x k : Expr) :
    c.exprNoHoist o i (.index p x k) = do
      let cx ← c.expr o (i + 1) x
      let ck ← c.expr o (i + 1 + x.size) k
      return .index cx ck (o.node i) := rfl

theorem exprs_cons (e : Expr) (es : List Expr) :
    c.exprs o i (e :: es) = do
      let ce ← c.expr o i e
      let ces ← c.exprs o (i + e.size) es
      return ce :: ces := rfl

end NoHoist

/-- The origin of the compiled loop's own nodes. -/
def own (c : Compiler) : Origin := ⟨c.key, true⟩

/-- Compile a counted loop bound at index `i`. -/
def bound (c : Compiler) (i : Nat) (e : Expr) : Except Error Bound := do
  return ⟨← c.expr c.own i e, i⟩

/-- The assignment a statement at index `i` performs: also the sequential
update of a reduction statement. -/
def sequential (c : Compiler) (i : Nat) (s : Stmt) : Except Error Update :=
  match s with
  | .compound _ n op v => do
    let (k, sl) ← c.slotOf n
    return .compound k (promoted sl) i op (← c.expr c.own (i + 1) v) (c.sel.shiftsAt? c.key i)
  | .assign _ n v => do
    let cv ← c.expr c.own (i + 1) v
    let (k, sl) ← c.slotOf n
    return .store k (promoted sl) i cv
  | _ => .error (Error.unsupported "reduction statement")

/-- Reduction `j` performed by the statement `s` at index `i`. -/
def reduction (c : Compiler) (j : Nat) (i : Nat) (s : Stmt) : Except Error Code := do
  let some red := c.sel.reductions[j]? | .error (Error.unsupported "reduction")
  let (_, sl) ← c.slotOf (c.shape.names[red.index]!)
  let contrib ← c.expr c.own red.contribution red.contrib
  let seq ← c.sequential i s
  return .reduce j sl.toNat red.op contrib red.updateNode red.accLeft seq

mutual
/-- Compile a statement at pre-order index `i`. -/
def stmt (c : Compiler) (i : Nat) (s : Stmt) : Except Error Code :=
  match s with
  | .declare _ n v => do
    let cv ← c.expr c.own (i + 1) v
    let (_, sl) ← c.slotOf n
    return .put sl.toNat cv
  | .assign .. | .compound .. =>
    match c.sel.reductionAt? c.key i with
    | some j => c.reduction j i s
    | none => .update <$> c.sequential i s
  | .step _ n down => do
    let (k, sl) ← c.slotOf n
    return .bump k sl.toNat i down
  | .cond _ cnd t e => do
    let cc ← c.expr c.own (i + 1) cnd
    let ct ← block c (i + 1 + cnd.size) t
    let ce ← block c (i + 1 + cnd.size + (Stmt.nodesOf t).length) e
    let unlikely := c.sel.hintAt? c.key i == some false
    return .branch cc ct ce unlikely
  | .brk _ => .ok .brk
  | .cont _ => .ok .cont
  | .ret _ none => .ok (.ret none)
  | .ret _ (some v) => do return .ret (some (← c.expr c.own (i + 1) v))
  | .eval _ x => do return .eval (← c.expr c.own (i + 1) x)
  | .loop k p h b => do
    let l : Loop := ⟨k, p, h, b⟩
    let bodyAt := i + 1 + (Expr.nodesOf h.exprs).length
    let cb ← block c bodyAt b
    let locals ← l.declared.mapM fun n => do
      let (_, sl) ← c.slotOf n
      return sl.toNat
    let head ← match h with
      | .range v a z st => do
        let ba ← c.bound (i + 1) a
        let bz ← c.bound (i + 1 + a.size) z
        let bs ← match st with
          | some st => some <$> c.bound (i + 1 + a.size + z.size) st
          | none => pure none
        let (_, sl) ← c.slotOf v
        pure (InnerHead.range ba bz bs sl.toNat)
      | .each v coll => do
        let cc ← c.expr c.own (i + 1) coll
        let (_, sl) ← c.slotOf v
        pure (InnerHead.each cc sl.toNat)
      | .cond cnd => do pure (InnerHead.cond (← c.expr c.own (i + 1) cnd))
    return .nested i locals head cb

/-- Compile a block whose first statement is at index `i`. -/
def block (c : Compiler) (i : Nat) : List Stmt → Except Error (List Code)
  | [] => .ok []
  | s :: ss => do
    let cs ← stmt c i s
    let css ← block c (i + s.size) ss
    return cs :: css

end

end Compiler

/-- Why a loop cannot be compiled, if it cannot: a call in its body, or a
nested loop declaring a name that the loop also uses outside it. -/
def Loop.unsupported? (l : Loop) : Option Error :=
  if hasCall l.body then some (Error.unsupported "call to dynamically resolved function")
  else
    (nestedLoops l.body).findSome? fun inner =>
      let outside := l.namesOutside inner.key
      (inner.declared.find? (outside.contains ·)).map fun n =>
        Error.unsupported (n ++ " is scoped to a nested loop")

/-- Compile loop `l` of shape `shape` with plan `sel` into its entry. -/
def Loop.compileEntry (l : Loop) (shape : Shape) (sel : Selection) : Except Error Entry := do
  if let some e := l.unsupported? then throw e
  let c : Compiler := ⟨shape, sel, l.key⟩
  let bodyAt := 1 + (Expr.nodesOf l.head.exprs).length
  let body ← c.block bodyAt l.body
  let plan : Origin := ⟨sel.loop, sel.loop == l.key⟩
  let hoisted ← sel.hoisted.mapM fun (i, e) => c.exprNoHoist plan i e
  match l.head with
  | .range v .. =>
    let (_, counter) ← c.slotOf v
    let lanes := sel.reductions.map fun r => ((shape.slot r.index).toNat, r.op)
    return { hoisted := hoisted, head := .range counter.toNat (max sel.unroll 1),
             lanes := lanes, width := sel.width, body := body }
  | .each v _ =>
    let (_, sl) ← c.slotOf v
    return { hoisted := hoisted, head := .each sl.toNat, lanes := [], width := sel.width, body := body }
  | .cond cnd =>
    let cc ← c.expr c.own 1 cnd
    return { hoisted := hoisted, head := .cond cc, lanes := [], width := sel.width, body := body }

end HotLoop
