import Mathlib
import HotLoop.Proofs.Shape.Exact
import HotLoop.Proofs.Dispatch.Gating
/-!
# HotLoop.Proofs.Plan.Profile

The profile of a loop, its tier and its access pattern, under a renaming of
its variables, and what the dispatcher plans from it.

* The tier reads the structure of a body only: how many statements, calls,
  branches and nested loops, and how deep they nest (`tierOf_rename`).
* The access pattern compares each index with the loop's counter, and an
  injective renaming keeps those comparisons (`indexPattern_rename`). The
  counter, though, is the range variable unless that is the empty name,
  which stands for "no counter". So the pattern is kept by every renaming
  that sends the range variable to the empty name exactly when it was the
  empty name (`Loop.access_rename`).
* Two loops equal up to such a renaming and their positions therefore get
  the same plan, up to the renaming, and the same fingerprint when the
  dispatcher finds them hot (`hotSite_rename`). A renaming that sends
  a counter to the empty name, or the empty name to a counter, is the one
  case where the two plans may differ.
-/

namespace HotLoop

variable {τ : String → String}

/-! ## The tier -/

/-- Renaming keeps the calls among a list of nodes. -/
theorem countCalls_rename (ns : List Node) :
    ((ns.map (Node.rename τ)).filter Node.isCall).length = (ns.filter Node.isCall).length := by
  rw [List.filter_map, List.length_map]
  congr 2
  funext n
  simp only [Function.comp_apply, Node.isCall_rename]

@[simp] theorem Stmt.ownCalls_rename (s : Stmt) : (s.rename τ).ownCalls = s.ownCalls := by
  cases s with
  | cond p c t e =>
    simp only [Stmt.rename, Stmt.ownCalls, Expr.nodes_rename, countCalls_rename]
  | loop k p h b =>
    simp only [Stmt.rename, Stmt.ownCalls, LoopHead.exprs_rename, Expr.nodesOf_renameAll,
      countCalls_rename]
  | _ =>
    -- the other statements count the calls below their own node
    rw [Stmt.ownCalls, Stmt.ownCalls, Stmt.nodes_rename, ← List.map_drop, countCalls_rename] <;>
      simp [Stmt.rename]

mutual
/-- A statement's share of the summary does not depend on names. -/
theorem Complexity.measureStmt_rename (d : Nat) (c : Complexity) :
    (s : Stmt) → Complexity.measureStmt d c (s.rename τ) = Complexity.measureStmt d c s
  | .cond p x t e => by
    unfold Complexity.measureStmt
    rw [Stmt.ownCalls_rename]
    simp only [Stmt.rename]
    rw [Complexity.measureBlock_rename, Complexity.measureBlock_rename]
  | .loop k p h b => by
    unfold Complexity.measureStmt
    rw [Stmt.ownCalls_rename]
    simp only [Stmt.rename]
    rw [Complexity.measureBlock_rename]
  | .declare .. | .assign .. | .compound .. | .step .. | .brk _ | .cont _ | .ret .. | .eval .. => by
    unfold Complexity.measureStmt
    rw [Stmt.ownCalls_rename]
    simp only [Stmt.rename]

theorem Complexity.measureBlock_rename (d : Nat) (c : Complexity) :
    (ss : List Stmt) → Complexity.measureBlock d c (Stmt.renameAll τ ss) = Complexity.measureBlock d c ss
  | [] => rfl
  | s :: ss => by
    simp only [Stmt.renameAll, Complexity.measureBlock]
    rw [Complexity.measureStmt_rename, Complexity.measureBlock_rename]
end

/-- The tier of a renamed body is the tier of the body. -/
theorem tierOf_rename (b : List Stmt) : tierOf (Stmt.renameAll τ b) = tierOf b := by
  rw [tierOf, tierOf, Complexity.ofBody, Complexity.ofBody, Complexity.measureBlock_rename]

/-! ## The access pattern -/

/-- Following an index down to the counter gives the same pattern after an
injective renaming, when the tests for the counter and for literals agree
on renamed expressions. -/
theorem indexPattern.walk_rename (hτ : Function.Injective τ) (v : String) {P P' Q Q' : Expr → Bool}
    (hP : ∀ e, P' (e.rename τ) = P e) (hQ : ∀ e, Q' (e.rename τ) = Q e) :
    (e : Expr) → indexPattern.walk (τ v) P' Q' (e.rename τ) = indexPattern.walk v P Q e
  | .ident _ n => by
    simp only [Expr.rename, indexPattern.walk, beq_iff_eq, hτ.eq_iff]
  | .binary _ op x y => by
    cases op <;> simp only [Expr.rename, indexPattern.walk, hP, hQ,
      indexPattern.walk_rename hτ v hP hQ x, indexPattern.walk_rename hτ v hP hQ y]
  | .int .. | .float .. | .bool .. | .array .. | .unary .. | .index .. | .call .. => by
    simp only [Expr.rename, indexPattern.walk]

/-- An index has the same pattern against the renamed counter after an
injective renaming. -/
theorem indexPattern_rename (hτ : Function.Injective τ) (c : Option String) (e : Expr) :
    indexPattern (c.map τ) (e.rename τ) = indexPattern c e := by
  cases c with
  | none => rfl
  | some v =>
    simp only [Option.map_some, indexPattern]
    refine indexPattern.walk_rename hτ v (fun e => ?_) (fun e => ?_) e
    · cases e <;> simp [Expr.rename, hτ.eq_iff]
    · cases e <;> rfl

/-- The counter an index is compared with: the variable of a range loop,
unless it is the empty name. -/
def Loop.counter? (l : Loop) : Option String :=
  match l.head with
  | .range v .. => if v = "" then none else some v
  | _ => none

/-- One node's part in the access pattern of a loop with counter `c`. -/
def Access.ofNode (c : Option String) (acc : Access) : Node → Access
  | .expr (.index _ _ i) => acc.worse (indexPattern c i)
  | _ => acc

theorem Loop.access_eq (l : Loop) :
    l.access = (Stmt.nodesOf l.body).foldl (Access.ofNode l.counter?) .scalar := rfl

theorem Access.ofNode_rename (hτ : Function.Injective τ) (c : Option String) (acc : Access) (n : Node) :
    Access.ofNode (c.map τ) acc (n.rename τ) = Access.ofNode c acc n := by
  rcases n with e | s
  · cases e <;> simp only [Node.rename, Expr.rename, Access.ofNode, indexPattern_rename hτ]
  · rfl

/-- A renaming that sends the range variable to the empty name exactly when
it is the empty name renames the counter. -/
theorem Loop.counter?_rename (l : Loop)
    (hv : ∀ v a b s, l.head = .range v a b s → (τ v = "" ↔ v = "")) :
    (l.rename τ).counter? = l.counter?.map τ := by
  obtain ⟨k, p, h, b⟩ := l
  cases h with
  | range v a b s =>
    have hv' := hv v a b s rfl
    by_cases h0 : v = ""
    · subst h0
      simp [Loop.rename, LoopHead.rename, Loop.counter?, hv'.mpr rfl]
    · simp [Loop.rename, LoopHead.rename, Loop.counter?, h0, mt hv'.mp h0]
  | cond c => rfl
  | each v c => rfl

/-- The access pattern survives an injective renaming that sends the range
variable to the empty name exactly when it is the empty name. -/
theorem Loop.access_rename (hτ : Function.Injective τ) (l : Loop)
    (hv : ∀ v a b s, l.head = .range v a b s → (τ v = "" ↔ v = "")) :
    (l.rename τ).access = l.access := by
  rw [Loop.access_eq, Loop.access_eq, Loop.counter?_rename l hv,
    show (l.rename τ).body = Stmt.renameAll τ l.body from rfl, Stmt.nodesOf_renameAll, List.foldl_map]
  congr 1
  funext acc n
  exact Access.ofNode_rename hτ _ acc n

/-- `for v in 0..4 { s += a[v] }`. -/
def Loop.indexedSum (v : String) : Loop :=
  ⟨0, Pos.none, .range v (.int Pos.none 0) (.int Pos.none 4) none,
    [.compound Pos.none "s" .add (.index Pos.none (.ident Pos.none "a") (.ident Pos.none v))]⟩

/-- The empty name is no counter: a loop over it reads its array at
irregular places, and the same loop over `i` reads it in sequence. -/
theorem access_indexedSum_empty_counter :
    (Loop.indexedSum "").access = .irregular ∧ (Loop.indexedSum "i").access = .sequential := by
  decide

/-! ## The plan of a hot loop -/

section Consequences

variable {l₁ l₂ : Loop}

/-- Two loops equal up to an injective renaming and their positions, where the
renaming sends the range variable to the empty name exactly when it is the
empty name, get the same fingerprint and the same plan, up to the renaming,
once the dispatcher finds them hot. -/
theorem hotSite_rename (hτ : Function.Injective τ) (h : l₂.rename id = l₁.rename τ)
    (hv : ∀ v a b s, l₁.head = .range v a b s → (τ v = "" ↔ v = "")) (po : PlanOptions) :
    (l₂.hotSite po).fingerprint = (l₁.hotSite po).fingerprint ∧
      (l₂.hotSite po).plan.map (Selection.rename id) = (l₁.hotSite po).plan.map (Selection.rename τ) := by
  -- the profile: renaming by `id` only forgets positions
  have ht : tierOf l₂.body = tierOf l₁.body := by
    have hb := congrArg Loop.body h
    rw [← tierOf_rename (τ := id) l₂.body, ← tierOf_rename (τ := τ) l₁.body]
    exact congrArg tierOf hb
  have ha : l₂.access = l₁.access := by
    rw [← Loop.access_rename Function.injective_id l₂ (fun _ _ _ _ _ => Iff.rfl), h,
      Loop.access_rename hτ l₁ hv]
  have hsel := choose_eq_of_rename hτ h po (tierOf l₁.body) l₁.access
  -- renaming a selection keeps its strategies
  have hset : (Selection.choose po l₂ l₂.shape (tierOf l₁.body) l₁.access).set =
      (Selection.choose po l₁ l₁.shape (tierOf l₁.body) l₁.access).set := by
    have := congrArg Selection.set hsel
    exact this
  simp only [Loop.hotSite, ht, ha, Option.map_some]
  constructor
  · show Fingerprint.of l₂.shape _ _ = Fingerprint.of l₁.shape _ _
    rw [hset, shape_eq_of_rename hτ h]
    rfl
  · rw [hsel]

/-- `for i in 0..4 { s += a[i] }` and `for j in 0..4 { s += a[j] }` get
one fingerprint and one plan. -/
theorem hotSite_rename_indexedSum :
    Function.Injective (Equiv.swap "i" "j") ∧
      (Loop.indexedSum "j").rename id = (Loop.indexedSum "i").rename (Equiv.swap "i" "j") ∧
      (∀ v a b s, (Loop.indexedSum "i").head = .range v a b s →
        (Equiv.swap "i" "j" v = "" ↔ v = "")) ∧
      ((Loop.indexedSum "j").hotSite {}).fingerprint = ((Loop.indexedSum "i").hotSite {}).fingerprint ∧
      ((Loop.indexedSum "j").hotSite {}).plan.map (Selection.rename id) =
        ((Loop.indexedSum "i").hotSite {}).plan.map (Selection.rename (Equiv.swap "i" "j")) := by
  have hτ := (Equiv.swap "i" "j").injective
  have h : (Loop.indexedSum "j").rename id = (Loop.indexedSum "i").rename (Equiv.swap "i" "j") := rfl
  have hv : ∀ v a b s, (Loop.indexedSum "i").head = .range v a b s →
      (Equiv.swap "i" "j" v = "" ↔ v = "") := by
    intro v a b s hh
    obtain ⟨rfl, -⟩ := LoopHead.range.inj hh
    decide
  exact ⟨hτ, h, hv, hotSite_rename hτ h hv {}⟩

end Consequences

end HotLoop
