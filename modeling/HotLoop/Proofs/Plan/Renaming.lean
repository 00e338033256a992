import Mathlib
import HotLoop.Proofs.Shape.Renaming
/-!
# HotLoop.Proofs.Plan.Renaming

The strategy choice commutes with an injective renaming of variables.

Every analysis behind `Selection.choose` reads a loop through its pre-order
nodes and its shape. It compares names only with each other (an identifier
with the loop variable, an accumulator with the identifiers of its
contribution) or looks them up in the shape's table, and an injective
renaming keeps all those answers. So the selection made for a renamed loop,
with its shape renamed, is the selection made for the loop, with the
expressions it carries renamed (`Selection.choose_rename`). The renaming may
forget positions and loop keys too: the strategies never read them.
-/

namespace HotLoop

/-- A reduction with its contribution renamed. -/
def Reduction.rename (τ : String → String) (r : Reduction) : Reduction :=
  { r with contrib := r.contrib.rename τ }

/-- A selection with the expressions it carries renamed and its loop key
forgotten. -/
def Selection.rename (τ : String → String) (s : Selection) : Selection :=
  { s with loop := 0, hoisted := s.hoisted.map fun p => (p.1, p.2.rename τ),
           reductions := s.reductions.map (Reduction.rename τ) }

variable {τ : String → String}

/-! ## What a node shows of itself -/

@[simp] theorem Node.ident?_rename (n : Node) : (n.rename τ).ident? = n.ident?.map τ := by
  rcases n with e | s
  · cases e <;> rfl
  · rfl

@[simp] theorem Node.isCall_rename (n : Node) : (n.rename τ).isCall = n.isCall := by
  rcases n with e | s
  · cases e <;> rfl
  · rfl

@[simp] theorem Node.isLoop_rename (n : Node) : (n.rename τ).isLoop = n.isLoop := by
  rcases n with e | s
  · rfl
  · cases s <;> rfl

@[simp] theorem Node.isReturn_rename (n : Node) : (n.rename τ).isReturn = n.isReturn := by
  rcases n with e | s
  · rfl
  · cases s <;> rfl

@[simp] theorem Expr.size_rename (e : Expr) : (e.rename τ).size = e.size := by
  rw [Expr.size, Expr.size, Expr.nodes_rename, List.length_map]

@[simp] theorem Stmt.size_rename (s : Stmt) : (s.rename τ).size = s.size := by
  rw [Stmt.size, Stmt.size, Stmt.nodes_rename, List.length_map]

@[simp] theorem Stmt.assignedName?_rename (s : Stmt) :
    (s.rename τ).assignedName? = s.assignedName?.map τ := by
  cases s <;> rfl

theorem hasCall_rename (b : List Stmt) : hasCall (Stmt.renameAll τ b) = hasCall b := by
  simp only [hasCall, Stmt.nodesOf_renameAll, List.any_map, Function.comp_def, Node.isCall_rename]

theorem hasNestedLoop_rename (b : List Stmt) :
    hasNestedLoop (Stmt.renameAll τ b) = hasNestedLoop b := by
  simp only [hasNestedLoop, Stmt.nodesOf_renameAll, List.any_map, Function.comp_def,
    Node.isLoop_rename]

theorem hasReturn_rename (b : List Stmt) : hasReturn (Stmt.renameAll τ b) = hasReturn b := by
  simp only [hasReturn, Stmt.nodesOf_renameAll, List.any_map, Function.comp_def,
    Node.isReturn_rename]

mutual
theorem Stmt.transfers_rename : (s : Stmt) → (s.rename τ).transfers = s.transfers
  | .cond _ _ t e => by
    simp only [Stmt.rename, Stmt.transfers]
    rw [Stmt.transfersOf_rename t, Stmt.transfersOf_rename e]
  | .loop _ _ _ b => by
    simp only [Stmt.rename, Stmt.transfers]
    rw [hasReturn_rename]
  | .declare .. | .assign .. | .compound .. | .step .. | .brk _ | .cont _ | .ret .. | .eval .. => by
    simp only [Stmt.rename, Stmt.transfers]

theorem Stmt.transfersOf_rename :
    (ss : List Stmt) → Stmt.transfersOf (Stmt.renameAll τ ss) = Stmt.transfersOf ss
  | [] => by simp only [Stmt.renameAll, Stmt.transfersOf]
  | s :: ss => by
    simp only [Stmt.renameAll, Stmt.transfersOf]
    rw [Stmt.transfers_rename s, Stmt.transfersOf_rename ss]
end

theorem hasControlTransfer_rename (b : List Stmt) :
    hasControlTransfer (Stmt.renameAll τ b) = hasControlTransfer b :=
  Stmt.transfersOf_rename b

/-! ## Names compared with names -/

section Injective

variable (hτ : Function.Injective τ)
include hτ

theorem Expr.reads_rename (e : Expr) (n : String) : (e.rename τ).reads (τ n) = e.reads n := by
  simp only [Expr.reads, Expr.nodes_rename, List.any_map, Function.comp_def, Node.ident?_rename]
  congr 1
  funext nd
  cases nd.ident? <;> simp [hτ.eq_iff]

theorem Expr.isIdent_rename (e : Expr) (n : String) :
    (e.rename τ).isIdent (τ n) = e.isIdent n := by
  cases e <;> simp [Expr.rename, Expr.isIdent, hτ.eq_iff]

theorem Stmt.touches_rename (s : Stmt) (n : String) :
    (s.rename τ).touches (τ n) = s.touches n := by
  simp only [Stmt.touches, Stmt.assignedName?_rename, Stmt.nodes_rename, List.any_map,
    Function.comp_def, Node.ident?_rename]
  congr 1
  · cases s.assignedName? <;> simp [hτ.eq_iff]
  · congr 1
    funext nd
    cases nd.ident? <;> simp [hτ.eq_iff]

omit hτ in
theorem Expr.readsSome_rename (e : Expr) : (e.rename τ).readsSome = e.readsSome := by
  simp only [Expr.readsSome, Expr.nodes_rename, List.any_map, Function.comp_def,
    Node.ident?_rename, Option.isSome_map]

theorem Expr.invariant_rename (s : Shape) :
    (e : Expr) → (e.rename τ).invariant (s.rename τ) = e.invariant s
  | .int .. | .float .. | .bool .. | .array .. | .index .. | .call .. => rfl
  | .ident _ n => by
    simp only [Expr.rename, Expr.invariant, Shape.index?_rename hτ]
    rfl
  | .unary _ _ x => by
    simp only [Expr.rename, Expr.invariant]
    rw [Expr.invariant_rename s x]
  | .binary _ op x y => by
    simp only [Expr.rename, Expr.invariant]
    rw [Expr.invariant_rename s x, Expr.invariant_rename s y]

/-! ## Roles -/

namespace UseMap

theorem touch_rename (s : Shape) (m : UseMap) (n : String) (u : FirstUse) :
    m.touch (s.rename τ) (τ n) u = m.touch s n u := by
  simp only [touch, Shape.index?_rename hτ]

theorem reads_rename (s : Shape) (m : UseMap) (e : Expr) :
    m.reads (s.rename τ) (e.rename τ) = m.reads s e := by
  simp only [reads, Expr.nodes_rename, List.foldl_map, Node.ident?_rename]
  congr 1
  funext m nd
  cases nd.ident? with
  | none => rfl
  | some v => exact touch_rename hτ s m v .read

theorem written_rename (s : Shape) (m : UseMap) (n : String) (step : Bool) :
    m.written (s.rename τ) (τ n) step = m.written s n step := by
  simp only [written, Shape.index?_rename hτ]

end UseMap

end Injective

namespace UseMap

mutual
/-- The walk over a renamed statement, with the shape renamed, sees the same
first uses and writes. -/
theorem stmt_rename (hτ : Function.Injective τ) (s : Shape) (m : UseMap) :
    (st : Stmt) → UseMap.stmt (s.rename τ) m (st.rename τ) = UseMap.stmt s m st
  | .declare _ n v | .assign _ n v => by
    simp only [Stmt.rename, UseMap.stmt]
    rw [reads_rename hτ, touch_rename hτ, written_rename hτ]
  | .compound _ n op v => by
    simp only [Stmt.rename, UseMap.stmt]
    rw [touch_rename hτ, reads_rename hτ, written_rename hτ]
    cases v <;> rfl
  | .step _ n _ => by
    simp only [Stmt.rename, UseMap.stmt]
    rw [touch_rename hτ, written_rename hτ]
  | .cond _ c t e => by
    simp only [Stmt.rename, UseMap.stmt]
    rw [reads_rename hτ, block_rename hτ s _ t, block_rename hτ s _ e]
  | .ret _ none | .brk _ | .cont _ => by simp only [Stmt.rename, UseMap.stmt, Option.map_none]
  | .ret _ (some v) => by
    simp only [Stmt.rename, UseMap.stmt, Option.map_some]
    rw [reads_rename hτ]
  | .eval _ x => by
    simp only [Stmt.rename, UseMap.stmt]
    rw [reads_rename hτ]
  | .loop _ _ (.range v a b st) body => by
    simp only [Stmt.rename, LoopHead.rename, UseMap.stmt]
    rw [reads_rename hτ, reads_rename hτ]
    cases st with
    | none =>
      simp only [Option.map_none]
      rw [touch_rename hτ, written_rename hτ, block_rename hτ s _ body]
    | some st =>
      simp only [Option.map_some]
      rw [reads_rename hτ, touch_rename hτ, written_rename hτ, block_rename hτ s _ body]
  | .loop _ _ (.each v coll) body => by
    simp only [Stmt.rename, LoopHead.rename, UseMap.stmt]
    rw [reads_rename hτ, touch_rename hτ, written_rename hτ, block_rename hτ s _ body]
  | .loop _ _ (.cond c) body => by
    simp only [Stmt.rename, LoopHead.rename, UseMap.stmt]
    rw [reads_rename hτ, block_rename hτ s _ body]

theorem block_rename (hτ : Function.Injective τ) (s : Shape) (m : UseMap) :
    (ss : List Stmt) → UseMap.block (s.rename τ) m (Stmt.renameAll τ ss) = UseMap.block s m ss
  | [] => by simp only [Stmt.renameAll, UseMap.block]
  | st :: ss => by
    simp only [Stmt.renameAll, UseMap.block]
    rw [stmt_rename hτ s m st, block_rename hτ s _ ss]
end

end UseMap

/-- A renamed loop, with its shape renamed, gives its variables the same
roles. -/
theorem Loop.roles_rename (hτ : Function.Injective τ) (l : Loop) (s : Shape) :
    (l.rename τ).roles (s.rename τ) = l.roles s := by
  have hn : (s.rename τ).names.size = s.names.size := Array.size_map ..
  have hb := UseMap.block_rename hτ s ⟨Array.replicate s.names.size .none,
    Array.replicate s.names.size false, Array.replicate s.names.size false⟩ l.body
  simp only [Loop.roles, Loop.rename, hn, hb]
  rfl

/-! ## Reductions -/

/-- A renamed statement performs the same reduction, with its contribution
renamed. -/
theorem reductionOf_rename (hτ : Function.Injective τ) (s : Shape) (i : Nat) (st : Stmt) :
    reductionOf (s.rename τ) i (st.rename τ) = (reductionOf s i st).map (Reduction.rename τ) := by
  cases st with
  | compound _ n op v =>
    simp only [reductionOf, Stmt.rename, Shape.index?_rename hτ, Expr.reads_rename hτ,
      Shape.rename_counter, Shape.rename_declared]
    rcases s.index? n with _ | k
    · split_ifs <;> rfl
    · dsimp only
      split_ifs <;> rfl
  | assign _ n v =>
    cases v with
    | binary _ op x y =>
      simp only [reductionOf, Stmt.rename, Expr.rename, Expr.isIdent_rename hτ, Expr.size_rename]
      -- the accumulator is the left operand, the right one, or neither
      split_ifs with hx hy
      all_goals
        dsimp only
        try simp only [Shape.index?_rename hτ, Expr.reads_rename hτ, Shape.rename_counter,
          Shape.rename_declared]
      · rcases s.index? n with _ | k
        · split_ifs <;> rfl
        · dsimp only
          split_ifs <;> rfl
      · rcases s.index? n with _ | k
        · split_ifs <;> rfl
        · dsimp only
          split_ifs <;> rfl
      · rfl
    | _ => rfl
  | _ => rfl

theorem Shape.index?_lt {s : Shape} {n : String} {k : Nat} (h : s.index? n = some k) :
    k < s.names.size := by
  simp only [Shape.index?, Array.idxOf?_eq_toList, List.idxOf?_eq_some_iff] at h
  simpa using h.1

/-- A reduction's accumulator is a variable of the shape. -/
theorem reductionOf_index_lt {s : Shape} {i : Nat} {st : Stmt} {r : Reduction}
    (h : reductionOf s i st = some r) : r.index < s.names.size := by
  obtain ⟨n, hn⟩ : ∃ n, s.index? n = some r.index := by
    cases st with
    | compound _ n op v =>
      simp only [reductionOf] at h
      split_ifs at h
      rcases hk : s.index? n with _ | k <;> simp only [hk] at h
      · contradiction
      · split_ifs at h
        cases h
        exact ⟨n, hk⟩
    | assign _ n v =>
      cases v with
      | binary _ op x y =>
        simp only [reductionOf] at h
        -- the accumulator is the left operand, the right one, or neither
        split_ifs at h with hx hy
        all_goals
          dsimp only at h
          split_ifs at h
          rcases hk : s.index? n with _ | k <;> simp only [hk] at h
          · contradiction
          · split_ifs at h
            cases h
            exact ⟨n, hk⟩
      | _ => simp [reductionOf] at h
    | _ => simp [reductionOf] at h
  exact Shape.index?_lt hn

theorem vectorize_rename (hτ : Function.Injective τ) (l : Loop) (s : Shape)
    (stmts : List (Nat × Stmt)) :
    vectorize (l.rename τ) (s.rename τ) (stmts.map fun p => (p.1, p.2.rename τ)) =
      (vectorize l s stmts).map (List.map (Reduction.rename τ)) := by
  unfold vectorize
  rw [show (l.rename τ).body = Stmt.renameAll τ l.body from rfl, hasCall_rename,
    hasNestedLoop_rename, hasControlTransfer_rename, Loop.roles_rename hτ]
  split_ifs with hc
  · rfl
  · dsimp only
    rw [List.foldl_map]
    generalize hA : List.foldl _ (some []) stmts = A
    generalize hB : List.foldl _ (some []) stmts = B
    -- the two folds keep the reductions related, and every accumulator in range
    have hAB : A = B.map (List.map (Reduction.rename τ)) ∧
        ∀ reds, B = some reds → ∀ r ∈ reds, r.index < s.names.size := by
      have h0 : ∀ reds : List Reduction, some [] = some reds →
          ∀ r ∈ reds, r.index < s.names.size := by
        intro reds h r hr
        rw [← Option.some.inj h] at hr
        simp at hr
      rw [← hA, ← hB]
      refine @List.foldl_rel _ _ _ _ _ _ _ _ (fun a b => a = b.map (List.map (Reduction.rename τ)) ∧
        ∀ reds, b = some reds → ∀ r ∈ reds, r.index < s.names.size)
        ⟨rfl, h0⟩ ?_
      rintro ⟨i, st⟩ - c c' ⟨rfl, hb⟩
      rcases c' with _ | reds
      · exact ⟨rfl, fun reds h => by cases h⟩
      · dsimp only
        rw [reductionOf_rename hτ]
        rcases hr : reductionOf s i st with _ | r
        · -- not a reduction: only the write of a temporary may stand here
          simp only [Option.map_some, Option.map_none]
          cases st with
          | declare _ n v | assign _ n v =>
            simp only [Stmt.rename, Shape.index?_rename hτ]
            rcases s.index? n with _ | k
            · exact ⟨rfl, fun _ h => by cases h⟩
            · dsimp only
              by_cases hk : (k : Int) ≠ s.counter ∧ (l.roles s)[k]! = Role.temporary
              · have hk' : (k : Int) ≠ (s.rename τ).counter ∧ (l.roles s)[k]! = .temporary := hk
                rw [if_pos hk', if_pos hk]
                exact ⟨rfl, fun reds' h => by cases h; exact hb reds rfl⟩
              · have hk' : ¬((k : Int) ≠ (s.rename τ).counter ∧ (l.roles s)[k]! = .temporary) := hk
                rw [if_neg hk', if_neg hk]
                exact ⟨rfl, fun _ h => by cases h⟩
          | _ => exact ⟨rfl, fun _ h => by cases h⟩
        · simp only [Option.map_some]
          refine ⟨by rw [List.map_append]; rfl, ?_⟩
          intro reds' h r' hr'
          cases h
          rcases List.mem_append.mp hr' with h1 | h1
          · exact hb reds rfl r' h1
          · rw [List.mem_singleton.mp h1]
            exact reductionOf_index_lt hr
    obtain ⟨rfl, hbound⟩ := hAB
    rcases B with _ | _ | ⟨r, rs⟩
    · rfl
    · rfl
    · -- no other statement touches an accumulator, in both loops alike
      have hclean : ((r.rename τ :: rs.map (Reduction.rename τ)).all fun r =>
          (stmts.map fun p => (p.1, p.2.rename τ)).all fun x =>
            x.1 == r.stmt || !x.2.touches (s.rename τ).names[r.index]!) =
          ((r :: rs).all fun r => stmts.all fun x =>
            x.1 == r.stmt || !x.2.touches s.names[r.index]!) := by
        rw [← List.map_cons]
        apply Bool.eq_iff_iff.mpr
        simp only [List.all_map, List.all_eq_true, Function.comp_apply]
        refine forall₂_congr fun x hx => ?_
        have hn : (s.rename τ).names[x.index]! = τ s.names[x.index]! := by
          have hx' := hbound _ rfl x hx
          rw [Shape.rename_names, getElem!_pos (s.names.map τ) x.index (by simpa using hx'),
            getElem!_pos s.names x.index hx', Array.getElem_map]
        simp only [Reduction.rename, hn, Stmt.touches_rename hτ]
      simp only [Option.map_some, List.map_cons]
      rw [hclean]
      split_ifs <;> rfl

/-! ## Scans over the nodes -/

/-- Hoisting picks the same expressions in a renamed loop, renamed. -/
theorem hoistScan_rename (hτ : Function.Injective τ) (s : Shape) (nodes : Array Node)
    (i stop : Nat) (acc : List (Nat × Expr)) :
    hoistScan (s.rename τ) (nodes.map (Node.rename τ)) i stop
        (acc.map fun p => (p.1, p.2.rename τ)) =
      (hoistScan s nodes i stop acc).map fun p => (p.1, p.2.rename τ) := by
  fun_induction hoistScan s nodes i stop acc with
  | case1 i acc hi p op x y hn hc ih =>
    have hc' := hc
    rw [← Expr.invariant_rename hτ, ← @Expr.readsSome_rename τ] at hc'
    rw [hoistScan, dif_pos hi, Array.getElem?_map, hn]
    simp only [Option.map_some, Node.rename, Expr.rename] at hc' ⊢
    have hs : (Expr.binary Pos.none op (x.rename τ) (y.rename τ)).size =
        (Expr.binary p op x y).size := @Expr.size_rename τ (.binary p op x y)
    rw [if_pos hc', hs, ← ih, List.map_cons]
    rfl
  | case2 i acc hi p op x y hn hc ih =>
    have hc' := hc
    rw [← Expr.invariant_rename hτ, ← @Expr.readsSome_rename τ] at hc'
    rw [hoistScan, dif_pos hi, Array.getElem?_map, hn]
    simp only [Option.map_some, Node.rename, Expr.rename] at hc' ⊢
    rw [if_neg hc', ih]
  | case3 i acc hi p op x hn hc ih =>
    have hc' := hc
    rw [← Expr.invariant_rename hτ, ← @Expr.readsSome_rename τ] at hc'
    rw [hoistScan, dif_pos hi, Array.getElem?_map, hn]
    simp only [Option.map_some, Node.rename, Expr.rename] at hc' ⊢
    have hs : (Expr.unary Pos.none op (x.rename τ)).size = (Expr.unary p op x).size :=
      @Expr.size_rename τ (.unary p op x)
    rw [if_pos hc', hs, ← ih, List.map_cons]
    rfl
  | case4 i acc hi p op x hn hc ih =>
    have hc' := hc
    rw [← Expr.invariant_rename hτ, ← @Expr.readsSome_rename τ] at hc'
    rw [hoistScan, dif_pos hi, Array.getElem?_map, hn]
    simp only [Option.map_some, Node.rename, Expr.rename] at hc' ⊢
    rw [if_neg hc', ih]
  | case5 i acc hi hb hu ih =>
    rw [hoistScan, dif_pos hi, Array.getElem?_map]
    rcases hn : nodes[i]? with _ | nd
    · simpa using ih
    · rcases nd with e | st
      · cases e with
        | binary p op x y => exact (hb p op x y hn).elim
        | unary p op x => exact (hu p op x hn).elim
        | _ => simpa [Node.rename, Expr.rename] using ih
      · simpa [Node.rename] using ih
  | case6 i acc hi =>
    rw [hoistScan, dif_neg hi, List.map_reverse]

/-- Multiplications by constants do not depend on names. -/
theorem shiftScan_rename (nodes : List (Nat × Node)) :
    shiftScan (nodes.map fun p => (p.1, p.2.rename τ)) = shiftScan nodes := by
  simp only [shiftScan, List.filterMap_map]
  congr 1
  funext p
  obtain ⟨i, n⟩ := p
  rcases n with e | st
  · cases e with
    | binary _ op x y =>
      cases op <;> try rfl
      cases y <;> cases x <;> rfl
    | _ => rfl
  · cases st with
    | compound _ n op v =>
      cases op <;> try rfl
      cases v <;> rfl
    | _ => rfl

/-- A renamed loop gets the same hints, for the renamed counter. -/
theorem hintScan_rename (hτ : Function.Injective τ) (s : Shape) (v : String)
    (nodes : List (Nat × Node)) :
    hintScan (s.rename τ) (τ v) (nodes.map fun p => (p.1, p.2.rename τ)) = hintScan s v nodes := by
  simp only [hintScan, List.filterMap_map]
  congr 1
  funext p
  obtain ⟨i, n⟩ := p
  rcases n with e | st
  · rfl
  · cases st with
    | cond _ c t e =>
      cases c with
      | binary _ op x y =>
        simp only [Function.comp_apply, Node.rename, Stmt.rename, Expr.rename,
          Expr.isIdent_rename hτ, Expr.invariant_rename hτ]
      | _ => rfl
    | _ => rfl

/-! ## The selection -/

theorem Selection.rename_record {α β : Type} (sel : Selection) (st : Strategy) (found : List α)
    (found' : List β) (store store' : Selection → Selection) (hf : found'.isEmpty = found.isEmpty)
    (hs : (store sel).rename τ = store' (sel.rename τ)) :
    (sel.record st found store).rename τ = (sel.rename τ).record st found' store' := by
  simp only [Selection.record, hf]
  split
  · rw [← hs]
    rfl
  · exact hs

theorem Selection.rename_record_hoisted (sel : Selection) (hs : List (Nat × Expr)) :
    (sel.record .hoisting hs fun sel => { sel with hoisted := hs }).rename τ =
      (sel.rename τ).record .hoisting (hs.map fun p => (p.1, p.2.rename τ))
        fun sel => { sel with hoisted := hs.map fun p => (p.1, p.2.rename τ) } :=
  Selection.rename_record _ _ _ _ _ _ (List.isEmpty_map ..) rfl

theorem Selection.rename_record_shifts (sel : Selection) (sa : List (Nat × List Nat)) :
    (sel.record .strengthReduction sa fun sel => { sel with shiftAdd := sa }).rename τ =
      (sel.rename τ).record .strengthReduction sa fun sel => { sel with shiftAdd := sa } :=
  Selection.rename_record _ _ _ _ _ _ rfl rfl

theorem Selection.rename_record_hints (sel : Selection) (hs : List (Nat × Bool)) :
    (sel.record .branchHints hs fun sel => { sel with hints := hs }).rename τ =
      (sel.rename τ).record .branchHints hs fun sel => { sel with hints := hs } :=
  Selection.rename_record _ _ _ _ _ _ rfl rfl

theorem Selection.rename_vectorizing (sel : Selection) (reds : List Reduction) (w : Nat) :
    (sel.vectorizing reds w).rename τ = (sel.rename τ).vectorizing (reds.map (Reduction.rename τ)) w :=
  rfl

theorem Selection.rename_unrolling (sel : Selection) (k : Nat) :
    (sel.unrolling k).rename τ = (sel.rename τ).unrolling k := rfl

theorem getElem!_map_rename (ns : List Node) (j : Nat) :
    (ns.map (Node.rename τ)).toArray[j]! = (ns.toArray[j]!).rename τ := by
  by_cases hj : j < ns.length
  · rw [getElem!_pos _ j (by simpa using hj), getElem!_pos _ j (by simpa using hj)]
    simp
  · rw [getElem!_neg _ j (by simpa using hj), getElem!_neg _ j (by simpa using hj)]
    rfl

/-- The selection made for a renamed loop, with its shape renamed, is the
selection made for the loop, with its expressions renamed, provided the
shape's counter, when there is one, is one of its names. -/
theorem Selection.choose_rename (hτ : Function.Injective τ) (o : PlanOptions) (l : Loop)
    (s : Shape) (t : Tier) (a : Access) (hc : 0 ≤ s.counter → s.counter.toNat < s.names.size) :
    Selection.choose o (l.rename τ) (s.rename τ) t a = (Selection.choose o l s t a).rename τ := by
  have hB : (Expr.nodesOf (l.rename τ).head.exprs).length = (Expr.nodesOf l.head.exprs).length := by
    rw [show (l.rename τ).head = l.head.rename τ from rfl, LoopHead.exprs_rename,
      Expr.nodesOf_renameAll, List.length_map]
  have hI : ∀ bs, ((List.range ((l.rename τ).nodes.toArray.size - bs)).map fun k =>
      (bs + k, (l.rename τ).nodes.toArray[bs + k]!)) =
      ((List.range (l.nodes.toArray.size - bs)).map fun k => (bs + k, l.nodes.toArray[bs + k]!)).map
        fun p => (p.1, p.2.rename τ) := by
    intro bs
    simp only [Loop.nodes_rename, List.size_toArray, List.length_map, List.map_map,
      Function.comp_def, getElem!_map_rename]
  have hH : ∀ bs, hoistScan (s.rename τ) (l.rename τ).nodes.toArray bs (l.rename τ).nodes.toArray.size [] =
      (hoistScan s l.nodes.toArray bs l.nodes.toArray.size []).map fun p => (p.1, p.2.rename τ) := by
    intro bs
    have hsz : (l.rename τ).nodes.toArray.size = l.nodes.toArray.size := by
      simp only [Loop.nodes_rename, List.size_toArray, List.length_map]
    rw [hsz, Loop.nodes_rename, ← List.map_toArray]
    exact hoistScan_rename hτ s _ bs _ []
  have hT : ∀ bs, ((l.rename τ).body.foldl (fun x st => (x.1 ++ [(x.2, st)], x.2 + st.size))
      (([] : List (Nat × Stmt)), bs)).1 =
      (l.body.foldl (fun x st => (x.1 ++ [(x.2, st)], x.2 + st.size))
        (([] : List (Nat × Stmt)), bs)).1.map fun p => (p.1, p.2.rename τ) := by
    intro bs
    rw [show (l.rename τ).body = l.body.map (Stmt.rename τ) from Stmt.renameAll_eq_map τ l.body,
      List.foldl_map]
    refine (@List.foldl_rel _ _ _ _ _ _ _ _ (fun (a b : List (Nat × Stmt) × Nat) =>
      a.1 = b.1.map (fun p => (p.1, p.2.rename τ)) ∧ a.2 = b.2) ⟨rfl, rfl⟩ ?_).1
    rintro st - ⟨a₁, i₁⟩ ⟨a₂, i₂⟩ ⟨h₁, h₂⟩
    dsimp only at h₁ h₂ ⊢
    rw [h₁, h₂, Stmt.size_rename, List.map_append]
    exact ⟨rfl, rfl⟩
  have hV := vectorize_rename hτ l s
  have hK : (l.rename τ).kind = l.kind := Loop.kind_rename τ l
  have hL : (l.rename τ).body.length = l.body.length := Stmt.length_renameAll τ l.body
  have hC : hasCall (l.rename τ).body = hasCall l.body := hasCall_rename l.body
  have hNL : hasNestedLoop (l.rename τ).body = hasNestedLoop l.body := hasNestedLoop_rename l.body
  have hHint : 0 ≤ s.counter → ∀ nodes,
      hintScan (s.rename τ) ((s.rename τ).names[s.counter.toNat]!)
        (nodes.map fun p => (p.1, p.2.rename τ)) = hintScan s (s.names[s.counter.toNat]!) nodes := by
    intro h0 nodes
    have hlt := hc h0
    rw [Shape.rename_names, getElem!_pos (s.names.map τ) _ (by simpa using hlt),
      getElem!_pos s.names _ hlt, Array.getElem_map, hintScan_rename hτ]
  unfold Selection.choose
  simp only [hB, hI, hH, hT, hV, hK, hL, hC, hNL, shiftScan_rename, Shape.rename_counter]
  generalize vectorize l s _ = vec
  by_cases h0 : 0 ≤ s.counter
  · simp only [hHint h0]
    cases vec <;>
    · simp only [Option.map_none, Option.map_some, apply_ite (Selection.rename τ),
        Selection.rename_record_hoisted, Selection.rename_record_shifts,
        Selection.rename_record_hints, Selection.rename_vectorizing, Selection.rename_unrolling]
      rfl
  · have hf : ¬(s.counter ≥ 0) := h0
    simp only [hf, and_false, if_false]
    cases vec <;>
    · simp only [Option.map_none, Option.map_some, apply_ite (Selection.rename τ),
        Selection.rename_record_hoisted, Selection.rename_record_shifts,
        Selection.rename_vectorizing, Selection.rename_unrolling]
      rfl

end HotLoop
