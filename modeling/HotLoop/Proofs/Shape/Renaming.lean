import Mathlib
import HotLoop.Proofs.Shape.Encoding
/-!
# HotLoop.Proofs.Shape.Renaming

The encoder commutes with an injective renaming of variables.

The encoder looks a name up in its table only to compare it with the names
already there, so renaming every variable of a loop by an injective `τ`
runs the encoder through the same steps: the same numbers, the same bytes,
the same counter and flags, and the table renamed by `τ`
(`Canon.stmt_rename`). Positions and loop keys are never written, so the
renaming may forget them too. The shape of a renamed loop is the shape of
the loop with its names renamed (`Loop.shape_rename`).
-/

namespace HotLoop

/-- Renaming the elements of a list keeps the first index of each, when no
two names are merged. -/
theorem List.idxOf?_map_of_injective {τ : String → String} (hτ : Function.Injective τ)
    (l : List String) (a : String) : (l.map τ).idxOf? (τ a) = l.idxOf? a := by
  induction l with
  | nil => rfl
  | cons x xs ih =>
    have hx : (τ x == τ a) = (x == a) := by simp [hτ.eq_iff]
    simp only [List.map_cons, List.idxOf?_cons, hx, ih]

/-- A shape with its names renamed; numbers, flags and slots are kept. -/
def Shape.rename (τ : String → String) (s : Shape) : Shape := { s with names := s.names.map τ }

@[simp] theorem Shape.rename_names (τ : String → String) (s : Shape) :
    (s.rename τ).names = s.names.map τ := rfl
@[simp] theorem Shape.rename_counter (τ : String → String) (s : Shape) :
    (s.rename τ).counter = s.counter := rfl
@[simp] theorem Shape.rename_declared (τ : String → String) (s : Shape) :
    (s.rename τ).declared = s.declared := rfl
@[simp] theorem Shape.rename_assigned (τ : String → String) (s : Shape) :
    (s.rename τ).assigned = s.assigned := rfl

@[simp] theorem Shape.rename_id (s : Shape) : s.rename id = s := by
  simp [Shape.rename]

theorem Shape.index?_rename {τ : String → String} (hτ : Function.Injective τ) (s : Shape)
    (n : String) : (s.rename τ).index? (τ n) = s.index? n := by
  simp only [Shape.index?, Shape.rename, Array.idxOf?_eq_toList, Array.toList_map]
  exact List.idxOf?_map_of_injective hτ s.names.toList n

namespace Canon

/-- The encoder state with every name of its table renamed. -/
def renameNames (τ : String → String) (c : Canon) : Canon := { c with names := c.names.map τ }

@[simp] theorem renameNames_bytes (τ : String → String) (c : Canon) :
    (c.renameNames τ).bytes = c.bytes := rfl

/-! ## One step at a time -/

section Steps

variable (τ : String → String) (c : Canon)

theorem tag_rename (t : Tag) : (c.renameNames τ).tag t = (c.tag t).renameNames τ := rfl
theorem byte_rename (b : UInt8) : (c.renameNames τ).byte b = (c.byte b).renameNames τ := rfl
theorem varint_rename (n : Nat) : (c.renameNames τ).varint n = (c.varint n).renameNames τ := rfl
theorem word_rename (w : UInt64) : (c.renameNames τ).word w = (c.word w).renameNames τ := rfl

variable {τ} (hτ : Function.Injective τ)
include hτ

/-- Numbering a renamed name gives the same number. -/
theorem name_rename (n : String) :
    (c.renameNames τ).name (τ n) = ((c.name n).1, (c.name n).2.renameNames τ) := by
  have hi : (c.renameNames τ).names.idxOf? (τ n) = c.names.idxOf? n := by
    simp only [renameNames, Array.idxOf?_eq_toList, Array.toList_map]
    exact List.idxOf?_map_of_injective hτ c.names.toList n
  unfold name
  rw [hi]
  cases c.names.idxOf? n with
  | some i => rfl
  | none => simp [renameNames, Array.map_push]

theorem markRead_rename (n : String) :
    (c.renameNames τ).markRead (τ n) = (c.markRead n).renameNames τ := by
  simp only [markRead, name_rename c hτ n]
  rfl

theorem write_rename (n : String) (d : Bool) :
    (c.renameNames τ).write (τ n) d = (c.write n d).renameNames τ := by
  simp only [write, name_rename c hτ n]
  cases d <;> rfl

theorem loopVar_rename (n : String) :
    (c.renameNames τ).loopVar (τ n) = ((c.loopVar n).1, (c.loopVar n).2.renameNames τ) := by
  simp only [loopVar, name_rename c hτ n]
  rfl

end Steps

/-! ## Whole trees -/

variable {τ : String → String}

mutual
/-- Encoding a renamed expression from a renamed state renames the result. -/
theorem expr_rename (hτ : Function.Injective τ) (c : Canon) :
    (e : Expr) → (c.renameNames τ).expr (e.rename τ) = (c.expr e).renameNames τ
  | .int .. | .float .. | .bool .. => rfl
  | .array _ es => by
    simp only [Expr.rename, Canon.expr, Expr.length_renameAll, tag_rename, varint_rename]
    exact exprs_rename hτ _ es
  | .ident _ n => by
    simp only [Expr.rename, Canon.expr, tag_rename, markRead_rename _ hτ, name_rename _ hτ,
      varint_rename]
  | .binary _ op x y => by
    simp only [Expr.rename, Canon.expr, tag_rename, byte_rename]
    rw [expr_rename hτ _ x, expr_rename hτ _ y]
  | .unary _ op x => by
    simp only [Expr.rename, Canon.expr, tag_rename, byte_rename]
    rw [expr_rename hτ _ x]
  | .index _ x i => by
    simp only [Expr.rename, Canon.expr, tag_rename]
    rw [expr_rename hτ _ x, expr_rename hτ _ i]
  | .call _ f args => by
    simp only [Expr.rename, Canon.expr, Expr.length_renameAll]
    let c₁ := (c.tag .call).varint f.utf8ByteSize
    exact exprs_rename hτ ({ c₁ with bytes := c₁.bytes ++ f.toUTF8 }.varint args.length) args

theorem exprs_rename (hτ : Function.Injective τ) (c : Canon) :
    (es : List Expr) → (c.renameNames τ).exprs (Expr.renameAll τ es) = (c.exprs es).renameNames τ
  | [] => rfl
  | e :: es => by
    simp only [Expr.renameAll, Canon.exprs]
    rw [expr_rename hτ _ e, exprs_rename hτ _ es]
end

theorem exprOpt_rename (hτ : Function.Injective τ) (c : Canon) (e : Option Expr) :
    (c.renameNames τ).exprOpt (e.map (Expr.rename τ)) = (c.exprOpt e).renameNames τ := by
  cases e with
  | none => rfl
  | some e => exact expr_rename hτ c e

/-- A block is its length followed by its statements. -/
theorem block_rename_of (c : Canon) (ss : List Stmt)
    (h : ((c.varint ss.length).renameNames τ).stmts (Stmt.renameAll τ ss) =
      ((c.varint ss.length).stmts ss).renameNames τ) :
    (c.renameNames τ).block (Stmt.renameAll τ ss) = (c.block ss).renameNames τ := by
  simp only [Canon.block_eq, Stmt.length_renameAll, varint_rename]
  exact h

-- blocks are unfolded to their statements, so that the recursion is structural
mutual
/-- Encoding a renamed statement from a renamed state renames the result. -/
theorem stmt_rename (hτ : Function.Injective τ) (c : Canon) :
    (s : Stmt) → (c.renameNames τ).stmt (s.rename τ) = (c.stmt s).renameNames τ
  | .declare _ n v | .assign _ n v => by
    simp only [Stmt.rename, Canon.stmt, tag_rename]
    rw [expr_rename hτ, write_rename _ hτ]
  | .compound _ n op v => by
    simp only [Stmt.rename, Canon.stmt, tag_rename, byte_rename]
    rw [markRead_rename _ hτ, expr_rename hτ, write_rename _ hτ]
  | .step _ n down => by
    simp only [Stmt.rename, Canon.stmt, tag_rename, byte_rename]
    rw [markRead_rename _ hτ, write_rename _ hτ]
  | .cond _ cnd t e => by
    simp only [Stmt.rename, Canon.stmt, tag_rename]
    rw [expr_rename hτ, block_rename_of _ t (stmts_rename hτ _ t),
      block_rename_of _ e (stmts_rename hτ _ e)]
  | .brk _ | .cont _ => by simp only [Stmt.rename, Canon.stmt, tag_rename]
  | .ret _ v => by
    simp only [Stmt.rename, Canon.stmt, tag_rename]
    rw [exprOpt_rename hτ]
  | .eval _ x => by
    simp only [Stmt.rename, Canon.stmt, tag_rename]
    rw [expr_rename hτ]
  | .loop _ _ (.range v a b st) body => by
    simp only [Stmt.rename, LoopHead.rename, Canon.stmt, loopVar_rename _ hτ, tag_rename,
      varint_rename]
    rw [expr_rename hτ, expr_rename hτ, exprOpt_rename hτ,
      block_rename_of _ body (stmts_rename hτ _ body)]
  | .loop _ _ (.cond cnd) body => by
    simp only [Stmt.rename, LoopHead.rename, Canon.stmt, tag_rename]
    rw [expr_rename hτ, block_rename_of _ body (stmts_rename hτ _ body)]
  | .loop _ _ (.each v coll) body => by
    simp only [Stmt.rename, LoopHead.rename, Canon.stmt, loopVar_rename _ hτ, tag_rename,
      varint_rename]
    rw [expr_rename hτ, block_rename_of _ body (stmts_rename hτ _ body)]

theorem stmts_rename (hτ : Function.Injective τ) (c : Canon) :
    (ss : List Stmt) → (c.renameNames τ).stmts (Stmt.renameAll τ ss) = (c.stmts ss).renameNames τ
  | [] => by simp only [Stmt.renameAll, Canon.stmts]
  | s :: ss => by
    simp only [Stmt.renameAll, Canon.stmts]
    rw [stmt_rename hτ _ s, stmts_rename hτ _ ss]
end

/-! ## The counter

The encoder never changes the counter: a loop's counter is the one set
before its statement is encoded. -/

theorem counter_name (c : Canon) (n : String) : (c.name n).2.counter = c.counter := by
  unfold name
  cases c.names.idxOf? n <;> rfl

theorem counter_markRead (c : Canon) (n : String) : (c.markRead n).counter = c.counter :=
  counter_name c n

theorem counter_write (c : Canon) (n : String) (d : Bool) :
    (c.write n d).counter = c.counter := by
  simp only [write]
  cases d <;> exact counter_name c n

mutual
theorem counter_expr (c : Canon) : (e : Expr) → (c.expr e).counter = c.counter
  | .int .. | .float .. | .bool .. => rfl
  | .array _ es => by
    simp only [Canon.expr]
    rw [counter_exprs _ es]
    rfl
  | .ident _ n => by
    simp only [Canon.expr]
    rw [varint, counter_name, counter_markRead]
    rfl
  | .binary _ _ x y | .index _ x y => by
    simp only [Canon.expr]
    rw [counter_expr _ y, counter_expr _ x]
    rfl
  | .unary _ _ x => by
    simp only [Canon.expr]
    rw [counter_expr _ x]
    rfl
  | .call _ f args => by
    simp only [Canon.expr]
    rw [counter_exprs _ args]
    rfl

theorem counter_exprs (c : Canon) : (es : List Expr) → (c.exprs es).counter = c.counter
  | [] => by simp only [Canon.exprs]
  | e :: es => by
    simp only [Canon.exprs]
    rw [counter_exprs _ es, counter_expr _ e]
end

theorem counter_exprOpt (c : Canon) (e : Option Expr) : (c.exprOpt e).counter = c.counter := by
  cases e with
  | none => rfl
  | some e => exact counter_expr c e

theorem counter_block_of {c : Canon} {ss : List Stmt}
    (h : ((c.varint ss.length).stmts ss).counter = (c.varint ss.length).counter) :
    (c.block ss).counter = c.counter := by
  simp only [Canon.block_eq]
  rw [h]
  rfl

-- blocks are unfolded to their statements, so that the recursion is structural
mutual
theorem counter_stmt (c : Canon) : (s : Stmt) → (c.stmt s).counter = c.counter
  | .declare _ n v | .assign _ n v => by
    simp only [Canon.stmt]
    rw [counter_write, counter_expr]
    rfl
  | .compound _ n op v => by
    simp only [Canon.stmt]
    rw [counter_write, counter_expr, counter_markRead]
    rfl
  | .step _ n down => by
    simp only [Canon.stmt]
    rw [counter_write, counter_markRead]
    rfl
  | .cond _ cnd t e => by
    simp only [Canon.stmt]
    rw [counter_block_of (counter_stmts _ e), counter_block_of (counter_stmts _ t), counter_expr]
    rfl
  | .brk _ | .cont _ => by simp only [Canon.stmt]; rfl
  | .ret _ v => by
    simp only [Canon.stmt]
    rw [counter_exprOpt]
    rfl
  | .eval _ x => by
    simp only [Canon.stmt]
    rw [counter_expr]
    rfl
  | .loop _ _ (.range v a b st) body => by
    simp only [Canon.stmt]
    rw [counter_block_of (counter_stmts _ body), counter_exprOpt, counter_expr, counter_expr]
    exact counter_name c v
  | .loop _ _ (.cond cnd) body => by
    simp only [Canon.stmt]
    rw [counter_block_of (counter_stmts _ body), counter_expr]
    rfl
  | .loop _ _ (.each v coll) body => by
    simp only [Canon.stmt]
    rw [counter_block_of (counter_stmts _ body), counter_expr]
    exact counter_name c v

theorem counter_stmts (c : Canon) : (ss : List Stmt) → (c.stmts ss).counter = c.counter
  | [] => by simp only [Canon.stmts]
  | s :: ss => by
    simp only [Canon.stmts]
    rw [counter_stmts _ ss, counter_stmt _ s]
end

end Canon

/-- A counted or collection loop numbers its variable first and makes it the
counter; a conditional loop has no counter. -/
theorem Loop.counter_lt_size (l : Loop) (h : 0 ≤ l.shape.counter) :
    l.shape.counter.toNat < l.shape.names.size := by
  obtain ⟨k, p, hd, b⟩ := l
  -- a counted or collection loop starts from a table holding its variable
  have start : ∀ v : String, let c0 : Canon := { (({} : Canon).loopVar v).2 with counter := 0 }
      ∀ s : Stmt, 0 < (c0.stmt s).names.size ∧ (c0.stmt s).counter = 0 := by
    intro v c0 s
    have hv : v ∈ c0.names.toList := Canon.mem_name {} v
    have hp := (Canon.names_prefix_stmt c0 s).length_le
    simp only [Array.length_toList] at hp
    exact ⟨lt_of_lt_of_le (List.length_pos_of_mem hv) hp, Canon.counter_stmt c0 s⟩
  cases hd with
  | cond c =>
    have hc : (Loop.mk k p (.cond c) b).shape.counter = -1 := Canon.counter_stmt {} _
    omega
  | range v x y st =>
    obtain ⟨hn, hc⟩ := start v (Loop.mk k p (.range v x y st) b).toStmt
    simp only [Loop.shape, Loop.canon]
    rw [hc]
    exact hn
  | each v c =>
    obtain ⟨hn, hc⟩ := start v (Loop.mk k p (.each v c) b).toStmt
    simp only [Loop.shape, Loop.canon]
    rw [hc]
    exact hn

/-! ## Loops -/

section Loops

variable {τ : String → String} (hτ : Function.Injective τ)
include hτ

/-- The encoder state after a renamed loop is the state after the loop,
with its table renamed. -/
theorem Loop.canon_rename (l : Loop) : (l.rename τ).canon = l.canon.renameNames τ := by
  obtain ⟨k, p, h, b⟩ := l
  have hs := Canon.stmt_rename hτ
  have h0 : ({} : Canon).renameNames τ = {} := by
    simp only [Canon.renameNames, Array.map_empty]
  cases h with
  | cond c =>
    have hc := hs {} (.loop k p (.cond c) b)
    rw [h0] at hc
    exact hc
  | range v x y st =>
    have hv := Canon.loopVar_rename ({} : Canon) hτ v
    rw [h0] at hv
    simp only [Loop.canon, Loop.rename, LoopHead.rename, hv]
    exact hs { (({} : Canon).loopVar v).2 with counter := 0 } (.loop k p (.range v x y st) b)
  | each v c =>
    have hv := Canon.loopVar_rename ({} : Canon) hτ v
    rw [h0] at hv
    simp only [Loop.canon, Loop.rename, LoopHead.rename, hv]
    exact hs { (({} : Canon).loopVar v).2 with counter := 0 } (.loop k p (.each v c) b)

/-- The shape of a renamed loop is its shape with the names renamed. -/
theorem Loop.shape_rename (l : Loop) : (l.rename τ).shape = l.shape.rename τ := by
  unfold Loop.shape
  rw [Loop.canon_rename hτ, Loop.kind_rename]
  simp only [Shape.rename, Canon.renameNames, Array.size_map]

end Loops

end HotLoop
