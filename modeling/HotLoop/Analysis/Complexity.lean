import HotLoop.Syntax.Walk
/-!
# HotLoop.Analysis.Complexity

Two coarse descriptions of a loop body that gate optimisations.

* The *complexity* counts statements, nesting depth, calls, nested loops and
  branches; its score places the body on the tier scale trivial < simple <
  moderate < complex. A body of at most two statements without calls, loops
  or branches is trivial whatever its score.
* The *access pattern* says how the body indexes arrays relative to the loop
  variable: not at all, at `i` or `i ± c`, at `i·c` (strided), or otherwise.
  The worst index in the body decides. A loop without a counted variable
  indexes irregularly.
-/

namespace HotLoop

/-- Complexity tiers, ordered. -/
inductive Tier where
  | trivial | simple | moderate | complex
  deriving DecidableEq, Repr, Inhabited

namespace Tier

def rank : Tier → Nat
  | trivial => 0 | simple => 1 | moderate => 2 | complex => 3

def name : Tier → String
  | trivial => "trivial" | simple => "simple" | moderate => "moderate" | complex => "complex"

/-- The tier of a rank; ranks above 3 are complex. -/
def ofRank : Nat → Tier
  | 0 => trivial | 1 => simple | 2 => moderate | _ => complex

instance : LE Tier := ⟨fun a b => a.rank ≤ b.rank⟩
instance (a b : Tier) : Decidable (a ≤ b) := inferInstanceAs (Decidable (a.rank ≤ b.rank))

end Tier

/-- Access patterns, ordered from best to worst. -/
inductive Access where
  | scalar | sequential | strided | irregular
  deriving DecidableEq, Repr, Inhabited

namespace Access

def rank : Access → Nat
  | scalar => 0 | sequential => 1 | strided => 2 | irregular => 3

def name : Access → String
  | scalar => "scalar" | sequential => "sequential" | strided => "strided" | irregular => "irregular"

/-- The pattern of a rank; ranks above 3 are irregular. -/
def ofRank : Nat → Access
  | 0 => scalar | 1 => sequential | 2 => strided | _ => irregular

/-- The worse of two patterns. -/
def worse (a b : Access) : Access := if b.rank > a.rank then b else a

instance : LE Access := ⟨fun a b => a.rank ≤ b.rank⟩
instance (a b : Access) : Decidable (a ≤ b) := inferInstanceAs (Decidable (a.rank ≤ b.rank))

end Access

/-- The structural summary of a loop body. -/
structure Complexity where
  statements : Nat := 0
  /-- Deepest statement nesting, 1 for a flat body, 0 for an empty one. -/
  depth : Nat := 0
  calls : Nat := 0
  nestedLoops : Nat := 0
  branches : Nat := 0
  deriving Repr, DecidableEq, Inhabited

namespace Complexity

/-- Weighted sum: statements, twice the extra depth, three per call, four
per nested loop, one per branch. -/
def score (c : Complexity) : Int :=
  c.statements + 2 * ((c.depth : Int) - 1) + 3 * c.calls + 4 * c.nestedLoops + c.branches

/-- The tier of a summary. -/
def tier (c : Complexity) : Tier :=
  if c.calls = 0 ∧ c.nestedLoops = 0 ∧ c.branches = 0 ∧ c.statements ≤ 2 then .trivial
  else if c.score ≤ 6 then .simple
  else if c.score ≤ 14 then .moderate
  else .complex

end Complexity

/-- Calls in the expressions a statement holds directly (not in nested
statements). -/
def Stmt.ownCalls : Stmt → Nat
  | .cond _ c _ _ => (c.nodes.filter Node.isCall).length
  | .loop _ _ h _ => ((Expr.nodesOf h.exprs).filter Node.isCall).length
  | s => ((s.nodes.drop 1).filter Node.isCall).length

mutual
/-- Add the statements of a block at nesting `depth` to a summary. -/
def Complexity.measureBlock (depth : Nat) (c : Complexity) : List Stmt → Complexity
  | [] => c
  | s :: ss =>
    let c := { c with depth := max c.depth depth }
    Complexity.measureBlock depth (Complexity.measureStmt depth c s) ss

/-- Add one statement at nesting `depth`, with the blocks it holds one level
deeper. -/
def Complexity.measureStmt (depth : Nat) (c : Complexity) (s : Stmt) : Complexity :=
  let c := { c with statements := c.statements + 1, calls := c.calls + s.ownCalls }
  match s with
  | .cond _ _ t e =>
    let c := { c with branches := c.branches + 1 }
    Complexity.measureBlock (depth + 1) (Complexity.measureBlock (depth + 1) c t) e
  | .loop _ _ _ b =>
    let c := { c with nestedLoops := c.nestedLoops + 1 }
    Complexity.measureBlock (depth + 1) c b
  | _ => c
end

/-- The summary of a loop body. -/
def Complexity.ofBody (b : List Stmt) : Complexity := Complexity.measureBlock 1 {} b

/-- The tier of a loop body. -/
def tierOf (b : List Stmt) : Tier := (Complexity.ofBody b).tier

/-- The pattern of one index expression relative to the counter variable
(`none` when the loop has none). -/
def indexPattern (counter : Option String) (e : Expr) : Access :=
  match counter with
  | none => .irregular
  | some v =>
    let isCounter (e : Expr) : Bool := match e with
      | .ident _ n => n == v
      | _ => false
    let isConst (e : Expr) : Bool := match e with
      | .int .. => true
      | _ => false
    -- follow additive constants down to the counter
    let rec walk (e : Expr) : Access :=
      match e with
      | .ident _ n => if n == v then .sequential else .irregular
      | .binary _ .add x y =>
        if isConst y then walk x else if isConst x then walk y else .irregular
      | .binary _ .sub x y => if isConst y then walk x else .irregular
      | .binary _ .mul x y =>
        if (isCounter x && isConst y) || (isConst x && isCounter y) then .strided else .irregular
      | _ => .irregular
    walk e

/-- The access pattern of a loop: the worst pattern of any index expression
in its body. -/
def Loop.access (l : Loop) : Access :=
  -- the empty name stands for "no counter", even as the name of a range
  -- loop's variable
  let counter := match l.head with
    | .range v .. => if v = "" then none else some v
    | _ => none
  (Stmt.nodesOf l.body).foldl (fun acc n => match n with
    | .expr (.index _ _ i) => acc.worse (indexPattern counter i)
    | _ => acc) .scalar

end HotLoop
