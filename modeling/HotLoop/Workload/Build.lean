import HotLoop.Syntax.Walk
/-!
# HotLoop.Workload.Build

Programs written as trees rather than text. Every node takes a position of
its own: all nodes of a program share one column and take the lines 1, 2, 3,
… in the order in which they are finished. A node is finished after all of
its parts, left to right, so a parent always sits on a later line than its
children, and the loop statements of a program get distinct positions.

Since loop sites are told apart by position, two programs built in different
columns never share a site, however alike they are.
-/

namespace HotLoop

/-- Where the next node goes: the column of the program and the last line
handed out. -/
structure Cursor where
  col : Nat
  line : Nat := 0
  deriving Inhabited

/-- Building a piece of a program. -/
abbrev Build := StateM Cursor

namespace Build

/-- The position of the node being finished. -/
def next : Build Pos :=
  modifyGet fun c => (⟨c.line + 1, c.col⟩, { c with line := c.line + 1 })

/-- Build the parts in order. -/
def all {α : Type} (parts : List (Build α)) : Build (List α) := parts.mapM id

/-! ## Expressions -/

/-- An integer literal. -/
def int (n : Int64) : Build Expr := do return .int (← next) n

/-- A boolean literal. -/
def bool (b : Bool) : Build Expr := do return .bool (← next) b

/-- A variable. -/
def ident (n : String) : Build Expr := do return .ident (← next) n

/-- A binary operation. -/
def bin (op : Op) (x y : Build Expr) : Build Expr := do
  let x ← x
  let y ← y
  return .binary (← next) op x y

/-- Negation. -/
def neg (x : Build Expr) : Build Expr := do
  let x ← x
  return .unary (← next) .neg x

/-- A call of a builtin. -/
def call (fn : String) (args : List (Build Expr)) : Build Expr := do
  let args ← all args
  return .call (← next) fn args

/-- The array literal `[0, 1, …, n - 1]`. -/
def ints (n : Nat) : Build Expr := do
  let elems ← all ((List.range n).map fun i => int (Int64.ofNat i))
  return .array (← next) elems

/-! ## Statements -/

/-- `let n = v`. -/
def declare (n : String) (v : Build Expr) : Build Stmt := do
  let v ← v
  return .declare (← next) n v

/-- `n = v`. -/
def assign (n : String) (v : Build Expr) : Build Stmt := do
  let v ← v
  return .assign (← next) n v

/-- `n op= v`. -/
def compound (n : String) (op : Op) (v : Build Expr) : Build Stmt := do
  let v ← v
  return .compound (← next) n op v

/-- `n++`. -/
def incr (n : String) : Build Stmt := do return .step (← next) n false

/-- `if c { thn } else { els }`. -/
def ifThen (c : Build Expr) (thn : List (Build Stmt)) (els : List (Build Stmt)) : Build Stmt := do
  let c ← c
  let thn ← all thn
  let els ← all els
  return .cond (← next) c thn els

/-- `break`. -/
def brk : Build Stmt := do return .brk (← next)

/-- `for v in start..stop { body }`. -/
def forRange (v : String) (start stop : Build Expr) (body : List (Build Stmt)) : Build Stmt := do
  let start ← start
  let stop ← stop
  let body ← all body
  return .loop 0 (← next) (.range v start stop none) body

/-- `while c { body }`. -/
def whileDo (c : Build Expr) (body : List (Build Stmt)) : Build Stmt := do
  let c ← c
  let body ← all body
  return .loop 0 (← next) (.cond c) body

/-- `for v in coll { body }`. -/
def forEach (v : String) (coll : Build Expr) (body : List (Build Stmt)) : Build Stmt := do
  let coll ← coll
  let body ← all body
  return .loop 0 (← next) (.each v coll) body

end Build

/-- The statements built in column `col`, their loops keyed from `key` on,
and the first key left unused. -/
def Build.program (b : Build (List Stmt)) (col key : Nat) : List Stmt × Nat :=
  Stmt.withKeysOf key (Id.run (b.run { col := col })).1

end HotLoop
