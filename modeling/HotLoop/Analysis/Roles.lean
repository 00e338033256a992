import HotLoop.Shape.Basic
/-!
# HotLoop.Analysis.Roles

How a loop uses each of its variables.

* A *counter* is the loop variable, or a variable that the body only ever
  steps by a constant (`x++`, `x--`, `x += 2`, `x -= 2`).
* An *accumulator* is written by the loop and first met, reading the body in
  order, as a read of itself (`sum += x`, `acc = acc * 2`).
* Every other variable is a *temporary*: written before it is read, or only
  read.
-/

namespace HotLoop

/-- Variable roles. -/
inductive Role where
  | temporary | counter | accumulator
  deriving DecidableEq, Repr, Inhabited

def Role.name : Role → String
  | .temporary => "temporary" | .counter => "counter" | .accumulator => "accumulator"

/-- The first access to a variable met in the body. -/
inductive FirstUse where
  | none | read | write
  deriving DecidableEq, Inhabited

/-- What the walk over a body has seen of each variable. -/
structure UseMap where
  first : Array FirstUse
  stepped : Array Bool
  other : Array Bool

namespace UseMap

/-- Record an access to `n` if it is the first one. -/
def touch (shape : Shape) (m : UseMap) (n : String) (u : FirstUse) : UseMap :=
  match shape.index? n with
  | some i => if m.first[i]! = .none then { m with first := m.first.set! i u } else m
  | none => m

/-- Record every identifier of an expression as read. -/
def reads (shape : Shape) (m : UseMap) (e : Expr) : UseMap :=
  e.nodes.foldl (fun m n => match n.ident? with
    | some v => m.touch shape v .read
    | none => m) m

/-- Record a write of `n`, by a constant step or otherwise. -/
def written (shape : Shape) (m : UseMap) (n : String) (constStep : Bool) : UseMap :=
  match shape.index? n with
  | some i => if constStep then { m with stepped := m.stepped.set! i true }
              else { m with other := m.other.set! i true }
  | none => m

mutual
/-- Walk one statement. -/
def stmt (shape : Shape) (m : UseMap) : Stmt → UseMap
  | .declare _ n v | .assign _ n v =>
    ((m.reads shape v).touch shape n .write).written shape n false
  | .compound _ n op v =>
    let lit := match v with
      | .int .. => true
      | _ => false
    ((m.touch shape n .read).reads shape v).written shape n (lit && (op == .add || op == .sub))
  | .step _ n _ => (m.touch shape n .read).written shape n true
  | .cond _ c t e => block shape (block shape (m.reads shape c) t) e
  | .ret _ (some v) => m.reads shape v
  | .eval _ x => m.reads shape x
  | .loop _ _ (.range v a b s) body =>
    let m := (m.reads shape a).reads shape b
    let m := match s with
      | some s => m.reads shape s
      | none => m
    block shape ((m.touch shape v .write).written shape v false) body
  | .loop _ _ (.each v coll) body =>
    block shape (((m.reads shape coll).touch shape v .write).written shape v false) body
  | .loop _ _ (.cond c) body => block shape (m.reads shape c) body
  | _ => m

/-- Walk a block in order. -/
def block (shape : Shape) (m : UseMap) : List Stmt → UseMap
  | [] => m
  | s :: ss => block shape (stmt shape m s) ss
end

end UseMap

/-- The role of every canonical variable of a loop. -/
def Loop.roles (l : Loop) (shape : Shape) : Array Role :=
  let n := shape.names.size
  let m := UseMap.block shape ⟨Array.replicate n .none, Array.replicate n false,
    Array.replicate n false⟩ l.body
  (Array.range n).map fun (i : Nat) =>
    if Int.ofNat i = shape.counter then .counter
    else if m.stepped[i]! && !m.other[i]! then .counter
    else if m.first[i]! = .read && shape.assigned[i]! then .accumulator
    else .temporary

end HotLoop
