import HotLoop.Syntax.Basic
/-!
# HotLoop.Syntax.Walk

Walks over the syntax tree.

`Stmt.nodes` lists a statement and everything under it in pre-order: parent
first, then the children from left to right (operands, index target before
index, condition before branches, a loop's header expressions before its
body). Two trees of the same structure list their nodes index by index, so a
*pre-order index* names the same node in both. The analyses of a loop read
its body through this list, or walk the tree where a nested loop has to be
treated apart.
-/

namespace HotLoop

mutual
/-- The pre-order nodes of an expression. -/
def Expr.nodes : Expr → List Node
  | e@(.array _ es) => .expr e :: Expr.nodesOf es
  | e@(.binary _ _ x y) => .expr e :: (x.nodes ++ y.nodes)
  | e@(.unary _ _ x) => .expr e :: x.nodes
  | e@(.index _ x i) => .expr e :: (x.nodes ++ i.nodes)
  | e@(.call _ _ args) => .expr e :: Expr.nodesOf args
  | e => [.expr e]

/-- The pre-order nodes of a list of expressions, one after the other. -/
def Expr.nodesOf : List Expr → List Node
  | [] => []
  | e :: es => e.nodes ++ Expr.nodesOf es
end

/-- The header expressions of a loop, in order. -/
def LoopHead.exprs : LoopHead → List Expr
  | .range _ a b none => [a, b]
  | .range _ a b (some c) => [a, b, c]
  | .cond c => [c]
  | .each _ c => [c]

mutual
/-- The pre-order nodes of a statement. -/
def Stmt.nodes : Stmt → List Node
  | s@(.declare _ _ v) => .stmt s :: v.nodes
  | s@(.assign _ _ v) => .stmt s :: v.nodes
  | s@(.compound _ _ _ v) => .stmt s :: v.nodes
  | s@(.cond _ c t e) => .stmt s :: (c.nodes ++ Stmt.nodesOf t ++ Stmt.nodesOf e)
  | s@(.ret _ (some v)) => .stmt s :: v.nodes
  | s@(.eval _ x) => .stmt s :: x.nodes
  | s@(.loop _ _ h b) => .stmt s :: (Expr.nodesOf h.exprs ++ Stmt.nodesOf b)
  | s => [.stmt s]

/-- The pre-order nodes of a block, statement after statement. -/
def Stmt.nodesOf : List Stmt → List Node
  | [] => []
  | s :: ss => s.nodes ++ Stmt.nodesOf ss
end

/-- The pre-order nodes of a loop, the loop itself first. -/
def Loop.nodes (l : Loop) : List Node := l.toStmt.nodes

namespace Node

/-- Whether a node is a call. -/
def isCall : Node → Bool
  | expr (.call ..) => true
  | _ => false

/-- Whether a node is a loop. -/
def isLoop : Node → Bool
  | stmt (.loop ..) => true
  | _ => false

/-- Whether a node is a `return`. -/
def isReturn : Node → Bool
  | stmt (.ret ..) => true
  | _ => false

/-- The name an identifier node reads. -/
def ident? : Node → Option String
  | expr (.ident _ n) => some n
  | _ => none

end Node

/-- Whether a block contains a call anywhere. -/
def hasCall (b : List Stmt) : Bool := (Stmt.nodesOf b).any Node.isCall

/-- Whether a block contains a loop statement at any depth. -/
def hasNestedLoop (b : List Stmt) : Bool := (Stmt.nodesOf b).any Node.isLoop

/-- Whether a block contains a `return` at any depth. -/
def hasReturn (b : List Stmt) : Bool := (Stmt.nodesOf b).any Node.isReturn

/-- Whether an expression reads `name`. -/
def Expr.reads (e : Expr) (name : String) : Bool :=
  e.nodes.any (·.ident? == some name)

mutual
/-- Whether a statement can leave the current iteration early: a `break`,
`continue` or `return` of its own, or a `return` anywhere inside a nested
loop (a nested loop's `break` and `continue` belong to it). -/
def Stmt.transfers : Stmt → Bool
  | .brk _ | .cont _ | .ret .. => true
  | .cond _ _ t e => Stmt.transfersOf t || Stmt.transfersOf e
  | .loop _ _ _ b => hasReturn b
  | _ => false

/-- `Stmt.transfers` of some statement of a block. -/
def Stmt.transfersOf : List Stmt → Bool
  | [] => false
  | s :: ss => s.transfers || Stmt.transfersOf ss
end

/-- Whether a block can leave the current iteration early. -/
def hasControlTransfer (b : List Stmt) : Bool := Stmt.transfersOf b

/-- Names a loop declares: its own variable, every `let` in its body and the
variable of every loop nested in it, in pre-order without repeats. -/
def Loop.declared (l : Loop) : List String :=
  let inner := (Stmt.nodesOf l.body).filterMap fun
    | .stmt (.declare _ n _) => some n
    | .stmt (.loop _ _ (.range v ..) _) => some v
    | .stmt (.loop _ _ (.each v _) _) => some v
    | _ => none
  (l.var?.toList ++ inner).eraseDups

mutual
/-- Names mentioned by a statement outside the subtree of the loop with key
`skip`: identifiers read, names written, loop variables. -/
def Stmt.namesAvoiding (skip : Nat) : Stmt → List String
  | .loop k _ h b =>
    if k = skip then []
    else
      let own := match h with
        | .range v .. | .each v _ => [v]
        | .cond _ => []
      own ++ (Expr.nodesOf h.exprs).filterMap Node.ident? ++ Stmt.namesAvoidingOf skip b
  | .cond _ c t e =>
    c.nodes.filterMap Node.ident? ++ Stmt.namesAvoidingOf skip t ++ Stmt.namesAvoidingOf skip e
  | s =>
    s.assignedName?.toList ++ (s.nodes.filterMap Node.ident?)

/-- `Stmt.namesAvoiding` over a block. -/
def Stmt.namesAvoidingOf (skip : Nat) : List Stmt → List String
  | [] => []
  | s :: ss => s.namesAvoiding skip ++ Stmt.namesAvoidingOf skip ss
end

/-- Names a loop mentions outside the nested loop with key `inner`: its own
variable and every name read or written elsewhere in its body. -/
def Loop.namesOutside (l : Loop) (inner : Nat) : List String :=
  l.var?.toList ++ Stmt.namesAvoidingOf inner l.body

/-- The loops nested anywhere in a block, in pre-order. -/
def nestedLoops (b : List Stmt) : List Loop :=
  (Stmt.nodesOf b).filterMap fun
    | .stmt s => s.asLoop?
    | _ => none

mutual
/-- How deep loops nest inside a statement: one more than the deepest body
for a loop, the deeper branch of a conditional, 0 for any other statement. -/
def Stmt.loopDepth : Stmt → Nat
  | .loop _ _ _ b => 1 + nestDepth b
  | .cond _ _ t e => max (nestDepth t) (nestDepth e)
  | _ => 0

/-- How deep loops nest inside a block: 0 without loops, the deepest of its
statements. -/
def nestDepth : List Stmt → Nat
  | [] => 0
  | s :: ss => max s.loopDepth (nestDepth ss)
end

end HotLoop

namespace HotLoop

mutual
/-- Give every loop of a statement a fresh key, counting up from `next`;
returns the next unused key. -/
def Stmt.withKeys (next : Nat) : Stmt → Stmt × Nat
  | .loop _ p h b =>
    let (b, n) := Stmt.withKeysOf (next + 1) b
    (.loop next p h b, n)
  | .cond p c t e =>
    let (t, n) := Stmt.withKeysOf next t
    let (e, n) := Stmt.withKeysOf n e
    (.cond p c t e, n)
  | s => (s, next)

/-- `Stmt.withKeys` over a block. -/
def Stmt.withKeysOf (next : Nat) : List Stmt → List Stmt × Nat
  | [] => ([], next)
  | s :: ss =>
    let (s, n) := s.withKeys next
    let (ss, n) := Stmt.withKeysOf n ss
    (s :: ss, n)
end

end HotLoop
