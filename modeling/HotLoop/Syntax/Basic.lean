import HotLoop.Value.Basic
import HotLoop.Op
/-!
# HotLoop.Syntax.Basic

The syntax tree of the loop language: expressions, statements and the three
loop forms. Every node carries a source position; the zero position means
"unknown".

A loop is a statement with a header (`LoopHead`) and a body. Besides its
position it carries a `key`: loops of a loaded program get distinct keys, so
that two loops written alike at the same place are still told apart. Keys
play no part in what a loop means, in its shape or in its hash; they only
let the dispatcher recognise the very loop it has seen before.
-/

namespace HotLoop

/-- A source position; a line of 0 or less means unknown. -/
structure Pos where
  line : Int
  col : Int
  deriving DecidableEq, Repr, Inhabited

namespace Pos

/-- The unknown position. -/
def none : Pos := ⟨0, 0⟩

/-- A position is known when its line is positive. -/
def known (p : Pos) : Bool := p.line > 0

/-- `line:col`, or `-` when unknown. -/
def text (p : Pos) : String :=
  if p.known then toString p.line ++ ":" ++ toString p.col else "-"

end Pos

/-- Expressions. -/
inductive Expr where
  | int (pos : Pos) (n : Int64)
  | float (pos : Pos) (x : Double)
  | bool (pos : Pos) (b : Bool)
  | array (pos : Pos) (elems : List Expr)
  | ident (pos : Pos) (name : String)
  | binary (pos : Pos) (op : Op) (x y : Expr)
  | unary (pos : Pos) (op : Op) (x : Expr)
  | index (pos : Pos) (x i : Expr)
  | call (pos : Pos) (fn : String) (args : List Expr)
  deriving Inhabited, Repr

/-- The position of an expression. -/
def Expr.pos : Expr → Pos
  | int p _ | float p _ | bool p _ | array p _ | ident p _ | binary p _ _ _
  | unary p _ _ | index p _ _ | call p _ _ => p

/-- The three loop headers: a counted range `var in start..stop` with an
optional step (1 when absent), a condition, or a collection `var in coll`. -/
inductive LoopHead where
  | range (var : String) (start stop : Expr) (step : Option Expr)
  | cond (c : Expr)
  | each (var : String) (coll : Expr)
  deriving Inhabited, Repr

/-- Statements. -/
inductive Stmt where
  | declare (pos : Pos) (name : String) (value : Expr)
  | assign (pos : Pos) (name : String) (value : Expr)
  | compound (pos : Pos) (name : String) (op : Op) (value : Expr)
  | step (pos : Pos) (name : String) (down : Bool)
  | cond (pos : Pos) (c : Expr) (thn els : List Stmt)
  | brk (pos : Pos)
  | cont (pos : Pos)
  | ret (pos : Pos) (value : Option Expr)
  | eval (pos : Pos) (x : Expr)
  | loop (key : Nat) (pos : Pos) (head : LoopHead) (body : List Stmt)
  deriving Inhabited, Repr

/-- The position of a statement. -/
def Stmt.pos : Stmt → Pos
  | declare p _ _ | assign p _ _ | compound p _ _ _ | step p _ _ | cond p _ _ _
  | brk p | cont p | ret p _ | eval p _ | loop _ p _ _ => p

/-- A loop statement taken apart. -/
structure Loop where
  key : Nat
  pos : Pos
  head : LoopHead
  body : List Stmt
  deriving Inhabited, Repr

/-- The kinds of loops, numbered 1 to 3. -/
inductive LoopKind where
  | counted | conditional | collection
  deriving DecidableEq, Repr, Inhabited

namespace LoopKind

/-- The written name of a loop kind. -/
def name : LoopKind → String
  | counted => "counted" | conditional => "conditional" | collection => "collection"

/-- The number of a loop kind. -/
def code : LoopKind → Nat
  | counted => 1 | conditional => 2 | collection => 3

/-- The loop kind of a number. -/
def ofCode? : Nat → Option LoopKind
  | 1 => some counted | 2 => some conditional | 3 => some collection | _ => none

end LoopKind

namespace Loop

/-- The loop as a statement. -/
def toStmt (l : Loop) : Stmt := .loop l.key l.pos l.head l.body

/-- The kind of a loop, read off its header. -/
def kind (l : Loop) : LoopKind :=
  match l.head with
  | .range .. => .counted
  | .cond _ => .conditional
  | .each .. => .collection

/-- The variable bound by the header, if any. -/
def var? (l : Loop) : Option String :=
  match l.head with
  | .range v .. | .each v _ => some v
  | .cond _ => none

end Loop

/-- A statement seen as a loop, when it is one. -/
def Stmt.asLoop? : Stmt → Option Loop
  | .loop k p h b => some ⟨k, p, h, b⟩
  | _ => none

/-- The variable written directly by a statement, if any. -/
def Stmt.assignedName? : Stmt → Option String
  | .declare _ n _ | .assign _ n _ | .compound _ n _ _ | .step _ n _ => some n
  | _ => none

/-- A node of the tree: an expression or a statement. -/
inductive Node where
  | expr (e : Expr)
  | stmt (s : Stmt)
  deriving Inhabited, Repr

/-- The position of a node. -/
def Node.pos : Node → Pos
  | expr e => e.pos
  | stmt s => s.pos

end HotLoop
