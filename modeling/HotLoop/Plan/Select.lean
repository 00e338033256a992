import HotLoop.Plan.Strategy
import HotLoop.Analysis.Complexity
import HotLoop.Analysis.Roles
/-!
# HotLoop.Plan.Select

Choosing the strategies for one loop. A selection names the nodes it
applies to by their pre-order index in the loop, together with the key of
the loop it was made for: the compiler applies a selection only to that very
loop, node by node.

* **Hoisting** takes the outermost operator expressions of the body that
  read some variable and are invariant: built from literals and variables
  the loop never writes, by operators that cannot fail on numbers (not
  `/`, `%`) and do not short-circuit (not `&&`, `||`).
* **Strength reduction** takes multiplications by a positive integer
  literal with at most three bits set (`x * 10`, `3 * x`, `x *= 5`) and
  replaces the factor by the shifts of its bits.
* **Vectorization** applies to counted loops of at most moderate tier whose
  indexing is at worst sequential, with more than one lane, when the body is
  made only of integer reductions `acc op= e` or `acc = acc op e` (`+` or
  `*`, `e` not reading `acc`, `acc` neither the counter nor declared in the
  loop nor touched by any other statement) and writes of temporaries.
* **Unrolling** applies to counted loops of at most moderate tier with at
  most four statements, no call and no nested loop.
* **Branch hints** mark conditionals that compare the loop variable with an
  invariant: the `then` branch is likely for `<`, `<=` and `!=`.
-/

namespace HotLoop

/-- Options of the strategy choice. -/
structure PlanOptions where
  disabled : StrategySet := {}
  /-- Iterations per unrolled block; 0 or less takes 4. -/
  unrollFactor : Int := 4
  /-- Integer lanes of the vector unit. -/
  vectorWidth : Nat := 4
  deriving Repr, Inhabited

/-- An accumulator updated as `acc = acc op contribution`. -/
structure Reduction where
  /-- Canonical index of the accumulator. -/
  index : Nat
  op : Op
  /-- Pre-order index of the updating statement. -/
  stmt : Nat
  /-- Pre-order index of the contribution. -/
  contribution : Nat
  contrib : Expr
  /-- The node whose position a failed update reports: the statement for
  `acc op= e`, the operator for `acc = acc op e`. -/
  updateNode : Nat
  /-- Whether the accumulator is the left operand of the update. -/
  accLeft : Bool
  /-- The update is an assignment `acc = …` rather than `acc op= …`. -/
  assigns : Bool
  deriving Inhabited, Repr

/-- The plan the compiler applies to one loop. -/
structure Selection where
  /-- Key of the loop the plan was made for. -/
  loop : Nat
  set : StrategySet := {}
  /-- Maximal invariant expressions, in pre-order, with their indices. -/
  hoisted : List (Nat × Expr) := []
  /-- Multiplications by constants and the shifts replacing the constant. -/
  shiftAdd : List (Nat × List Nat) := []
  reductions : List Reduction := []
  width : Nat := 0
  unroll : Nat := 0
  /-- Conditionals and whether their `then` branch is likely. -/
  hints : List (Nat × Bool) := []
  deriving Inhabited, Repr

namespace Selection

/-- Position of the expression at pre-order index `i` of loop `key` among
the hoisted expressions. -/
def hoistIndex? (s : Selection) (key i : Nat) : Option Nat :=
  if s.loop = key then s.hoisted.findIdx? (·.1 == i) else none

/-- Shifts replacing the multiplication at `i` of loop `key`. -/
def shiftsAt? (s : Selection) (key i : Nat) : Option (List Nat) :=
  if s.loop = key then (s.shiftAdd.find? (·.1 == i)).map (·.2) else none

/-- The reduction performed by the statement at `i` of loop `key`. -/
def reductionAt? (s : Selection) (key i : Nat) : Option Nat :=
  if s.loop = key then s.reductions.findIdx? (·.stmt == i) else none

/-- The hint of the conditional at `i` of loop `key`. -/
def hintAt? (s : Selection) (key i : Nat) : Option Bool :=
  if s.loop = key then (s.hints.find? (·.1 == i)).map (·.2) else none

end Selection

/-- Whether an expression is invariant in a loop of shape `shape`. -/
def Expr.invariant (shape : Shape) : Expr → Bool
  | .int .. | .float .. | .bool .. => true
  | .ident _ n => match shape.index? n with
    | some i => !shape.assigned[i]!
    | none => false
  | .unary _ _ x => x.invariant shape
  | .binary _ op x y =>
    if op = .div ∨ op = .mod ∨ op = .and ∨ op = .or then false
    else x.invariant shape && y.invariant shape
  | _ => false

/-- Whether an expression reads any variable. -/
def Expr.readsSome (e : Expr) : Bool := e.nodes.any (·.ident?.isSome)

/-- The number of nodes under an expression, itself included. -/
def Expr.size (e : Expr) : Nat := e.nodes.length

/-- The number of nodes under a statement, itself included. -/
def Stmt.size (s : Stmt) : Nat := s.nodes.length

/-- The hoisted expressions among the nodes `nodes[i:stop]`: an invariant
operator expression that reads a variable is taken whole and its subtree
skipped. -/
def hoistScan (shape : Shape) (nodes : Array Node) (i stop : Nat)
    (acc : List (Nat × Expr)) : List (Nat × Expr) :=
  if _h : i < stop then
    match nodes[i]? with
    | some (.expr e@(.binary ..)) | some (.expr e@(.unary ..)) =>
      if e.invariant shape && e.readsSome then
        hoistScan shape nodes (i + max 1 e.size) stop ((i, e) :: acc)
      else hoistScan shape nodes (i + 1) stop acc
    | _ => hoistScan shape nodes (i + 1) stop acc
  else acc.reverse
termination_by stop - i
decreasing_by all_goals omega

/-- The shifts of the set bits of a positive constant with at most three of
them, low bit first. -/
def shiftsFor (c : Int64) : Option (List Nat) :=
  if c ≤ 0 then none
  else
    let bits := (List.range 64).filter fun k => (c.toUInt64 >>> k.toUInt64) &&& 1 == 1
    if bits.length > 3 then none else some bits

/-- Multiplications by constants among indexed nodes. -/
def shiftScan (nodes : List (Nat × Node)) : List (Nat × List Nat) :=
  nodes.filterMap fun (i, n) =>
    match n with
    | .expr (.binary _ .mul x y) =>
      match y, x with
      | .int _ c, _ => (shiftsFor c).map (i, ·)
      | _, .int _ c => (shiftsFor c).map (i, ·)
      | _, _ => none
    | .stmt (.compound _ _ .mul (.int _ c)) => (shiftsFor c).map (i, ·)
    | _ => none

/-- Whether an expression is the identifier `n`. -/
def Expr.isIdent (e : Expr) (n : String) : Bool :=
  match e with
  | .ident _ m => m == n
  | _ => false

/-- The reduction a body statement at pre-order index `i` performs, if any. -/
def reductionOf (shape : Shape) (i : Nat) (st : Stmt) : Option Reduction :=
  let candidate : Option (String × Op × Expr × Nat × Nat × Bool × Bool) :=
    match st with
    | .compound _ n op v => some (n, op, v, i + 1, i, true, false)
    | .assign _ n (.binary _ op x y) =>
      if x.isIdent n then some (n, op, y, i + 2 + x.size, i + 1, true, true)
      else if y.isIdent n then some (n, op, x, i + 2, i + 1, false, true)
      else none
    | _ => none
  match candidate with
  | none => none
  | some (n, op, contrib, ci, node, accLeft, assigns) =>
    if op ≠ .add ∧ op ≠ .mul then none
    else match shape.index? n with
      | none => none
      | some k =>
        if (k : Int) = shape.counter ∨ shape.declared[k]! ∨ contrib.reads n then none
        else some ⟨k, op, i, ci, contrib, node, accLeft, assigns⟩

/-- Whether a statement writes or reads `n`. -/
def Stmt.touches (st : Stmt) (n : String) : Bool :=
  st.assignedName? == some n || st.nodes.any (·.ident? == some n)

/-- The reductions of a vectorizable body, given its statements with their
pre-order indices. -/
def vectorize (l : Loop) (shape : Shape) (stmts : List (Nat × Stmt)) : Option (List Reduction) :=
  if hasCall l.body || hasNestedLoop l.body || hasControlTransfer l.body then none
  else
    let roles := l.roles shape
    let step (acc : Option (List Reduction)) (p : Nat × Stmt) : Option (List Reduction) :=
      match acc with
      | none => none
      | some reds =>
        match reductionOf shape p.1 p.2 with
        | some r => some (reds ++ [r])
        | none =>
          let name := match p.2 with
            | .declare _ n _ | .assign _ n _ => some n
            | _ => none
          match name with
          | none => none
          | some n => match shape.index? n with
            | some k => if (k : Int) ≠ shape.counter ∧ roles[k]! = .temporary then some reds else none
            | none => none
    match stmts.foldl step (some []) with
    | none => none
    | some [] => none
    | some reds =>
      let clean := reds.all fun r =>
        let n := shape.names[r.index]!
        stmts.all fun (i, st) => i == r.stmt || !st.touches n
      if clean then some reds else none

/-- The branch hints among indexed nodes, for the counter named `v`. -/
def hintScan (shape : Shape) (v : String) (nodes : List (Nat × Node)) : List (Nat × Bool) :=
  nodes.filterMap fun (i, n) =>
    match n with
    | .stmt (.cond _ (.binary _ op x y) _ _) =>
      if !op.isComparison then none
      else
        let op? := if x.isIdent v && y.invariant shape then some op
          else if y.isIdent v && x.invariant shape then some op.mirror
          else none
        op?.map fun op => (i, op = .lt ∨ op = .le ∨ op = .ne)
    | _ => none

namespace Selection

/-- Store what a scan found with `store`, and switch strategy `st` on when
the scan found something. -/
def record {α : Type} (sel : Selection) (st : Strategy) (found : List α)
    (store : Selection → Selection) : Selection :=
  let sel := store sel
  if !found.isEmpty then { sel with set := sel.set.insert st } else sel

/-- Switch vectorization on, for reductions `reds` over `width` lanes. -/
def vectorizing (sel : Selection) (reds : List Reduction) (width : Nat) : Selection :=
  { sel with reductions := reds, width := width, set := sel.set.insert .vectorization }

/-- Switch unrolling on, `factor` iterations a block. -/
def unrolling (sel : Selection) (factor : Nat) : Selection :=
  { sel with unroll := factor, set := sel.set.insert .unrolling }

end Selection

/-- Choose the strategies for loop `l` of shape `shape`, classified as
`tier` and `access`: each enabled strategy in turn updates the selection. -/
def Selection.choose (o : PlanOptions) (l : Loop) (shape : Shape) (tier : Tier) (access : Access) :
    Selection :=
  let nodes := l.nodes.toArray
  let bodyStart := 1 + (Expr.nodesOf l.head.exprs).length
  let indexed := (List.range (nodes.size - bodyStart)).map fun k =>
    (bodyStart + k, nodes[bodyStart + k]!)
  let stmts := (l.body.foldl (fun (acc, i) st => (acc ++ [(i, st)], i + st.size))
    (([] : List (Nat × Stmt)), bodyStart)).1
  let enabled (st : Strategy) : Bool := !o.disabled.has st
  let unroll : Nat := if o.unrollFactor ≤ 0 then 4 else o.unrollFactor.toNat
  let counted := l.kind = .counted
  let sel : Selection := { loop := l.key }
  let sel :=
    if enabled .hoisting then
      let hs := hoistScan shape nodes bodyStart nodes.size []
      sel.record .hoisting hs fun sel => { sel with hoisted := hs }
    else sel
  let sel :=
    if enabled .strengthReduction then
      let sa := shiftScan indexed
      sel.record .strengthReduction sa fun sel => { sel with shiftAdd := sa }
    else sel
  let sel :=
    if enabled .vectorization ∧ counted ∧ o.vectorWidth > 1 ∧ tier ≤ .moderate ∧
        access ≤ .sequential then
      match vectorize l shape stmts with
      | some reds => sel.vectorizing reds o.vectorWidth
      | none => sel
    else sel
  let sel :=
    if enabled .unrolling ∧ counted ∧ unroll > 1 ∧ tier ≤ .moderate ∧ l.body.length ≤ 4 ∧
        !hasCall l.body ∧ !hasNestedLoop l.body then
      sel.unrolling unroll
    else sel
  if enabled .branchHints ∧ shape.counter ≥ 0 then
    let hs := hintScan shape (shape.names[shape.counter.toNat]!) indexed
    sel.record .branchHints hs fun sel => { sel with hints := hs }
  else sel

end HotLoop
