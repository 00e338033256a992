import Mathlib
import HotLoop.Plan.Select
/-!
# HotLoop.Proofs.Syntax.Rename

Renaming the variables of a loop. `rename σ` replaces every variable name
(identifiers read, names written, loop variables) by its image under `σ`,
keeps call names, operators and literals, and forgets source positions and
loop keys, which play no part in what a loop computes. So `l.rename id` is
`l` with its positions erased, and two loops are the same up to a renaming
`σ` and their positions when `l₂.rename id = l₁.rename σ`.

The variables of a tree (`vars`) are read off its pre-order nodes. Renaming
commutes with taking the nodes, renaming twice is renaming by the
composition, and a renaming is determined by what it does on `vars`.
-/

namespace HotLoop

/-! ## Renaming -/

mutual
/-- Rename the variables of an expression and forget its positions. -/
def Expr.rename (σ : String → String) : Expr → Expr
  | .int _ n => .int Pos.none n
  | .float _ x => .float Pos.none x
  | .bool _ b => .bool Pos.none b
  | .array _ es => .array Pos.none (Expr.renameAll σ es)
  | .ident _ n => .ident Pos.none (σ n)
  | .binary _ op x y => .binary Pos.none op (x.rename σ) (y.rename σ)
  | .unary _ op x => .unary Pos.none op (x.rename σ)
  | .index _ x i => .index Pos.none (x.rename σ) (i.rename σ)
  | .call _ f args => .call Pos.none f (Expr.renameAll σ args)

/-- `Expr.rename` on each expression of a list. -/
def Expr.renameAll (σ : String → String) : List Expr → List Expr
  | [] => []
  | e :: es => e.rename σ :: Expr.renameAll σ es
end

/-- Rename the variable and the expressions of a loop header. -/
def LoopHead.rename (σ : String → String) : LoopHead → LoopHead
  | .range v a b s => .range (σ v) (a.rename σ) (b.rename σ) (s.map (Expr.rename σ))
  | .cond c => .cond (c.rename σ)
  | .each v c => .each (σ v) (c.rename σ)

mutual
/-- Rename the variables of a statement and forget its positions and loop
keys. -/
def Stmt.rename (σ : String → String) : Stmt → Stmt
  | .declare _ n v => .declare Pos.none (σ n) (v.rename σ)
  | .assign _ n v => .assign Pos.none (σ n) (v.rename σ)
  | .compound _ n op v => .compound Pos.none (σ n) op (v.rename σ)
  | .step _ n down => .step Pos.none (σ n) down
  | .cond _ c t e => .cond Pos.none (c.rename σ) (Stmt.renameAll σ t) (Stmt.renameAll σ e)
  | .brk _ => .brk Pos.none
  | .cont _ => .cont Pos.none
  | .ret _ v => .ret Pos.none (v.map (Expr.rename σ))
  | .eval _ x => .eval Pos.none (x.rename σ)
  | .loop _ _ h b => .loop 0 Pos.none (h.rename σ) (Stmt.renameAll σ b)

/-- `Stmt.rename` on each statement of a block. -/
def Stmt.renameAll (σ : String → String) : List Stmt → List Stmt
  | [] => []
  | s :: ss => s.rename σ :: Stmt.renameAll σ ss
end

/-- Rename the variables of a loop and forget its key and positions. -/
def Loop.rename (σ : String → String) (l : Loop) : Loop :=
  ⟨0, Pos.none, l.head.rename σ, Stmt.renameAll σ l.body⟩

/-- Rename the variables of a node. -/
def Node.rename (σ : String → String) : Node → Node
  | .expr e => .expr (e.rename σ)
  | .stmt s => .stmt (s.rename σ)

theorem Expr.renameAll_eq_map (σ : String → String) (es : List Expr) :
    Expr.renameAll σ es = es.map (Expr.rename σ) := by
  induction es with
  | nil => rfl
  | cons e es ih => simp [Expr.renameAll, ih]

theorem Stmt.renameAll_eq_map (σ : String → String) (ss : List Stmt) :
    Stmt.renameAll σ ss = ss.map (Stmt.rename σ) := by
  induction ss with
  | nil => rfl
  | cons s ss ih => simp [Stmt.renameAll, ih]

@[simp] theorem Expr.length_renameAll (σ : String → String) (es : List Expr) :
    (Expr.renameAll σ es).length = es.length := by
  rw [Expr.renameAll_eq_map, List.length_map]

@[simp] theorem Stmt.length_renameAll (σ : String → String) (ss : List Stmt) :
    (Stmt.renameAll σ ss).length = ss.length := by
  rw [Stmt.renameAll_eq_map, List.length_map]

theorem Loop.toStmt_rename (σ : String → String) (l : Loop) :
    (l.rename σ).toStmt = l.toStmt.rename σ := rfl

theorem LoopHead.exprs_rename (σ : String → String) (h : LoopHead) :
    (h.rename σ).exprs = Expr.renameAll σ h.exprs := by
  cases h with
  | range v a b s => cases s <;> simp [LoopHead.rename, LoopHead.exprs, Expr.renameAll]
  | cond c => simp [LoopHead.rename, LoopHead.exprs, Expr.renameAll]
  | each v c => simp [LoopHead.rename, LoopHead.exprs, Expr.renameAll]

/-- A renaming keeps the kind of a loop. -/
@[simp] theorem Loop.kind_rename (σ : String → String) (l : Loop) :
    (l.rename σ).kind = l.kind := by
  obtain ⟨k, p, h, b⟩ := l
  cases h <;> rfl

/-! ## Nodes and variables -/

mutual
/-- Renaming commutes with the pre-order nodes of an expression. -/
theorem Expr.nodes_rename (σ : String → String) :
    (e : Expr) → (e.rename σ).nodes = e.nodes.map (Node.rename σ)
  | .int .. | .float .. | .bool .. | .ident .. => rfl
  | .array _ es => by
    simp only [Expr.rename, Expr.nodes, List.map_cons, Expr.nodesOf_renameAll σ es]; rfl
  | .binary _ op x y => by
    simp only [Expr.rename, Expr.nodes, List.map_cons, List.map_append,
      Expr.nodes_rename σ x, Expr.nodes_rename σ y]; rfl
  | .unary _ op x => by
    simp only [Expr.rename, Expr.nodes, List.map_cons, Expr.nodes_rename σ x]; rfl
  | .index _ x i => by
    simp only [Expr.rename, Expr.nodes, List.map_cons, List.map_append,
      Expr.nodes_rename σ x, Expr.nodes_rename σ i]; rfl
  | .call _ f args => by
    simp only [Expr.rename, Expr.nodes, List.map_cons, Expr.nodesOf_renameAll σ args]; rfl

/-- Renaming commutes with the pre-order nodes of a list of expressions. -/
theorem Expr.nodesOf_renameAll (σ : String → String) :
    (es : List Expr) → Expr.nodesOf (Expr.renameAll σ es) = (Expr.nodesOf es).map (Node.rename σ)
  | [] => rfl
  | e :: es => by
    simp only [Expr.renameAll, Expr.nodesOf, List.map_append, Expr.nodes_rename σ e,
      Expr.nodesOf_renameAll σ es]
end

mutual
/-- Renaming commutes with the pre-order nodes of a statement. -/
theorem Stmt.nodes_rename (σ : String → String) :
    (s : Stmt) → (s.rename σ).nodes = s.nodes.map (Node.rename σ)
  | .declare _ n v | .assign _ n v | .compound _ n _ v => by
    simp only [Stmt.rename, Stmt.nodes, List.map_cons, Expr.nodes_rename σ v]; rfl
  | .eval _ x => by
    simp only [Stmt.rename, Stmt.nodes, List.map_cons, Expr.nodes_rename σ x]; rfl
  | .step .. | .brk _ | .cont _ | .ret _ none => rfl
  | .ret _ (some v) => by
    simp only [Stmt.rename, Option.map_some, Stmt.nodes, List.map_cons, Expr.nodes_rename σ v]; rfl
  | .cond _ c t e => by
    simp only [Stmt.rename, Stmt.nodes, List.map_cons, List.map_append, Expr.nodes_rename σ c,
      Stmt.nodesOf_renameAll σ t, Stmt.nodesOf_renameAll σ e]; rfl
  | .loop _ _ h b => by
    simp only [Stmt.rename, Stmt.nodes, List.map_cons, List.map_append, LoopHead.exprs_rename,
      Expr.nodesOf_renameAll, Stmt.nodesOf_renameAll σ b]; rfl

/-- Renaming commutes with the pre-order nodes of a block. -/
theorem Stmt.nodesOf_renameAll (σ : String → String) :
    (ss : List Stmt) → Stmt.nodesOf (Stmt.renameAll σ ss) = (Stmt.nodesOf ss).map (Node.rename σ)
  | [] => rfl
  | s :: ss => by
    simp only [Stmt.renameAll, Stmt.nodesOf, List.map_append, Stmt.nodes_rename σ s,
      Stmt.nodesOf_renameAll σ ss]
end

/-- The pre-order nodes of a renamed loop are its nodes renamed, index by
index. -/
theorem Loop.nodes_rename (σ : String → String) (l : Loop) :
    (l.rename σ).nodes = l.nodes.map (Node.rename σ) :=
  Stmt.nodes_rename σ l.toStmt

/-! ## Variables -/

mutual
/-- The variables an expression reads, in pre-order with repeats. -/
def Expr.vars : Expr → List String
  | .ident _ n => [n]
  | .array _ es | .call _ _ es => Expr.varsOf es
  | .binary _ _ x y | .index _ x y => x.vars ++ y.vars
  | .unary _ _ x => x.vars
  | .int .. | .float .. | .bool .. => []

/-- The variables of a list of expressions. -/
def Expr.varsOf : List Expr → List String
  | [] => []
  | e :: es => e.vars ++ Expr.varsOf es
end

/-- The variables of a loop header: its own variable first. -/
def LoopHead.vars : LoopHead → List String
  | .range v a b s => v :: (a.vars ++ b.vars ++ (s.map Expr.vars).getD [])
  | .cond c => c.vars
  | .each v c => v :: c.vars

mutual
/-- The variables of a statement: every identifier, written name and loop
variable under it. -/
def Stmt.vars : Stmt → List String
  | .declare _ n v | .assign _ n v | .compound _ n _ v => n :: v.vars
  | .step _ n _ => [n]
  | .cond _ c t e => c.vars ++ Stmt.varsOf t ++ Stmt.varsOf e
  | .ret _ v => (v.map Expr.vars).getD []
  | .eval _ x => x.vars
  | .loop _ _ h b => h.vars ++ Stmt.varsOf b
  | .brk _ | .cont _ => []

/-- The variables of a block. -/
def Stmt.varsOf : List Stmt → List String
  | [] => []
  | s :: ss => s.vars ++ Stmt.varsOf ss
end

/-- The variables of a loop. -/
def Loop.vars (l : Loop) : List String := l.toStmt.vars

/-! ## Renaming composes -/

mutual
theorem Expr.rename_rename (f g : String → String) :
    (e : Expr) → (e.rename f).rename g = e.rename (g ∘ f)
  | .int .. | .float .. | .bool .. | .ident .. => rfl
  | .array _ es | .call _ _ es => by
    simp only [Expr.rename, Expr.renameAll_rename f g es]
  | .binary _ _ x y | .index _ x y => by
    simp only [Expr.rename, Expr.rename_rename f g x, Expr.rename_rename f g y]
  | .unary _ _ x => by simp only [Expr.rename, Expr.rename_rename f g x]

theorem Expr.renameAll_rename (f g : String → String) :
    (es : List Expr) → Expr.renameAll g (Expr.renameAll f es) = Expr.renameAll (g ∘ f) es
  | [] => rfl
  | e :: es => by
    simp only [Expr.renameAll, Expr.rename_rename f g e, Expr.renameAll_rename f g es]
end

theorem LoopHead.rename_rename (f g : String → String) (h : LoopHead) :
    (h.rename f).rename g = h.rename (g ∘ f) := by
  cases h with
  | range v a b s =>
    cases s <;> simp [LoopHead.rename, Expr.rename_rename]
  | cond c => simp [LoopHead.rename, Expr.rename_rename]
  | each v c => simp [LoopHead.rename, Expr.rename_rename]

mutual
theorem Stmt.rename_rename (f g : String → String) :
    (s : Stmt) → (s.rename f).rename g = s.rename (g ∘ f)
  | .declare _ _ v | .assign _ _ v | .compound _ _ _ v | .eval _ v => by
    simp only [Stmt.rename, Expr.rename_rename f g v, Function.comp_apply]
  | .step .. | .brk _ | .cont _ | .ret _ none => rfl
  | .ret _ (some v) => by simp only [Stmt.rename, Option.map_some, Expr.rename_rename f g v]
  | .cond _ c t e => by
    simp only [Stmt.rename, Expr.rename_rename f g c, Stmt.renameAll_rename f g t,
      Stmt.renameAll_rename f g e]
  | .loop _ _ h b => by
    simp only [Stmt.rename, LoopHead.rename_rename f g h, Stmt.renameAll_rename f g b]

theorem Stmt.renameAll_rename (f g : String → String) :
    (ss : List Stmt) → Stmt.renameAll g (Stmt.renameAll f ss) = Stmt.renameAll (g ∘ f) ss
  | [] => rfl
  | s :: ss => by
    simp only [Stmt.renameAll, Stmt.rename_rename f g s, Stmt.renameAll_rename f g ss]
end

theorem Loop.rename_rename (f g : String → String) (l : Loop) :
    (l.rename f).rename g = l.rename (g ∘ f) := by
  simp only [Loop.rename, LoopHead.rename_rename, Stmt.renameAll_rename]

/-! ## A renaming acts on the variables only -/

mutual
theorem Expr.vars_rename (σ : String → String) :
    (e : Expr) → (e.rename σ).vars = e.vars.map σ
  | .int .. | .float .. | .bool .. | .ident .. => rfl
  | .array _ es | .call _ _ es => by simp only [Expr.rename, Expr.vars, Expr.varsOf_renameAll σ es]
  | .binary _ _ x y | .index _ x y => by
    simp only [Expr.rename, Expr.vars, List.map_append, Expr.vars_rename σ x, Expr.vars_rename σ y]
  | .unary _ _ x => by simp only [Expr.rename, Expr.vars, Expr.vars_rename σ x]

theorem Expr.varsOf_renameAll (σ : String → String) :
    (es : List Expr) → Expr.varsOf (Expr.renameAll σ es) = (Expr.varsOf es).map σ
  | [] => rfl
  | e :: es => by
    simp only [Expr.renameAll, Expr.varsOf, List.map_append, Expr.vars_rename σ e,
      Expr.varsOf_renameAll σ es]
end

theorem LoopHead.vars_rename (σ : String → String) (h : LoopHead) :
    (h.rename σ).vars = h.vars.map σ := by
  cases h with
  | range v a b s => cases s <;> simp [LoopHead.rename, LoopHead.vars, Expr.vars_rename]
  | cond c => simp [LoopHead.rename, LoopHead.vars, Expr.vars_rename]
  | each v c => simp [LoopHead.rename, LoopHead.vars, Expr.vars_rename]

mutual
theorem Stmt.vars_rename (σ : String → String) :
    (s : Stmt) → (s.rename σ).vars = s.vars.map σ
  | .declare _ _ v | .assign _ _ v | .compound _ _ _ v => by
    simp only [Stmt.rename, Stmt.vars, List.map_cons, Expr.vars_rename σ v]
  | .eval _ v => by simp only [Stmt.rename, Stmt.vars, Expr.vars_rename σ v]
  | .step .. | .brk _ | .cont _ | .ret _ none => rfl
  | .ret _ (some v) => by
    simp only [Stmt.rename, Stmt.vars, Option.map_some, Option.getD_some, Expr.vars_rename σ v]
  | .cond _ c t e => by
    simp only [Stmt.rename, Stmt.vars, List.map_append, Expr.vars_rename σ c,
      Stmt.varsOf_renameAll σ t, Stmt.varsOf_renameAll σ e]
  | .loop _ _ h b => by
    simp only [Stmt.rename, Stmt.vars, List.map_append, LoopHead.vars_rename σ h,
      Stmt.varsOf_renameAll σ b]

theorem Stmt.varsOf_renameAll (σ : String → String) :
    (ss : List Stmt) → Stmt.varsOf (Stmt.renameAll σ ss) = (Stmt.varsOf ss).map σ
  | [] => rfl
  | s :: ss => by
    simp only [Stmt.renameAll, Stmt.varsOf, List.map_append, Stmt.vars_rename σ s,
      Stmt.varsOf_renameAll σ ss]
end

mutual
/-- Renamings that agree on the variables of an expression rename it alike. -/
theorem Expr.rename_congr {f g : String → String} :
    (e : Expr) → (∀ a ∈ e.vars, f a = g a) → e.rename f = e.rename g
  | .int .., _ | .float .., _ | .bool .., _ => rfl
  | .ident _ n, h => by simp [Expr.rename, h n (by simp [Expr.vars])]
  | .array _ es, h | .call _ _ es, h => by
    simp only [Expr.rename, Expr.renameAll_congr es (by simpa [Expr.vars] using h)]
  | .binary _ _ x y, h | .index _ x y, h => by
    simp only [Expr.vars, List.mem_append] at h
    simp only [Expr.rename, Expr.rename_congr x (fun a ha => h a (.inl ha)),
      Expr.rename_congr y (fun a ha => h a (.inr ha))]
  | .unary _ _ x, h => by
    simp only [Expr.rename, Expr.rename_congr x (by simpa [Expr.vars] using h)]

theorem Expr.renameAll_congr {f g : String → String} :
    (es : List Expr) → (∀ a ∈ Expr.varsOf es, f a = g a) → Expr.renameAll f es = Expr.renameAll g es
  | [], _ => rfl
  | e :: es, h => by
    simp only [Expr.varsOf, List.mem_append] at h
    simp only [Expr.renameAll, Expr.rename_congr e (fun a ha => h a (.inl ha)),
      Expr.renameAll_congr es (fun a ha => h a (.inr ha))]
end

theorem LoopHead.rename_congr {f g : String → String} (h : LoopHead)
    (hfg : ∀ a ∈ h.vars, f a = g a) : h.rename f = h.rename g := by
  cases h with
  | range v a b s =>
    simp only [LoopHead.vars, List.mem_cons, List.mem_append] at hfg
    simp only [LoopHead.rename, hfg v (.inl rfl),
      Expr.rename_congr a (fun x hx => hfg x (.inr (.inl (.inl hx)))),
      Expr.rename_congr b (fun x hx => hfg x (.inr (.inl (.inr hx))))]
    cases s with
    | none => rfl
    | some s =>
      simp only [Option.map_some,
        Expr.rename_congr s (fun x hx => hfg x (.inr (.inr (by simpa using hx))))]
  | cond c => simp only [LoopHead.rename, Expr.rename_congr c hfg]
  | each v c =>
    simp only [LoopHead.vars, List.mem_cons] at hfg
    simp only [LoopHead.rename, hfg v (.inl rfl), Expr.rename_congr c (fun x hx => hfg x (.inr hx))]

mutual
/-- Renamings that agree on the variables of a statement rename it alike. -/
theorem Stmt.rename_congr {f g : String → String} :
    (s : Stmt) → (∀ a ∈ s.vars, f a = g a) → s.rename f = s.rename g
  | .declare _ n v, h | .assign _ n v, h | .compound _ n _ v, h => by
    simp only [Stmt.vars, List.mem_cons] at h
    simp only [Stmt.rename, h n (.inl rfl), Expr.rename_congr v (fun a ha => h a (.inr ha))]
  | .step _ n _, h => by simp [Stmt.rename, h n (by simp [Stmt.vars])]
  | .eval _ v, h => by simp only [Stmt.rename, Expr.rename_congr v h]
  | .brk _, _ | .cont _, _ | .ret _ none, _ => rfl
  | .ret _ (some v), h => by
    simp only [Stmt.rename, Option.map_some, Expr.rename_congr v (by simpa [Stmt.vars] using h)]
  | .cond _ c t e, h => by
    simp only [Stmt.vars, List.mem_append] at h
    simp only [Stmt.rename, Expr.rename_congr c (fun a ha => h a (.inl (.inl ha))),
      Stmt.renameAll_congr t (fun a ha => h a (.inl (.inr ha))),
      Stmt.renameAll_congr e (fun a ha => h a (.inr ha))]
  | .loop _ _ hd b, h => by
    simp only [Stmt.vars, List.mem_append] at h
    simp only [Stmt.rename, LoopHead.rename_congr hd (fun a ha => h a (.inl ha)),
      Stmt.renameAll_congr b (fun a ha => h a (.inr ha))]

theorem Stmt.renameAll_congr {f g : String → String} :
    (ss : List Stmt) → (∀ a ∈ Stmt.varsOf ss, f a = g a) → Stmt.renameAll f ss = Stmt.renameAll g ss
  | [], _ => rfl
  | s :: ss, h => by
    simp only [Stmt.varsOf, List.mem_append] at h
    simp only [Stmt.renameAll, Stmt.rename_congr s (fun a ha => h a (.inl ha)),
      Stmt.renameAll_congr ss (fun a ha => h a (.inr ha))]
end

/-- Two renamings give the same statement exactly when they agree on its
variables. -/
theorem Stmt.rename_eq_rename_iff {f g : String → String} (s : Stmt) :
    s.rename f = s.rename g ↔ ∀ a ∈ s.vars, f a = g a := by
  refine ⟨fun h => ?_, Stmt.rename_congr s⟩
  have hv := congrArg Stmt.vars h
  rw [Stmt.vars_rename, Stmt.vars_rename] at hv
  exact List.map_inj_left.mp hv

theorem Loop.rename_congr {f g : String → String} (l : Loop) (h : ∀ a ∈ l.vars, f a = g a) :
    l.rename f = l.rename g := by
  have hs := Stmt.rename_congr l.toStmt h
  simp only [Loop.toStmt, Stmt.rename, Stmt.loop.injEq] at hs
  simp only [Loop.rename, hs]

end HotLoop
