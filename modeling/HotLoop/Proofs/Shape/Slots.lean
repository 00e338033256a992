import HotLoop.Proofs.Shape.Encoding
/-!
# HotLoop.Proofs.Shape.Slots

Where a loop's variables live in its frame. The shape numbers every variable
once, gives a slot to each one the loop writes or declares, and numbers the
slots in canonical order; so distinct names own distinct slots, slot `s`
belongs to the name at canonical index `promoted[s]`, and every name the loop
binds (its own variable, a `let` anywhere in its body, the variable of a
nested loop) has a slot marked declared.

The encoder facts behind this hold for any relation between encoder states
that every primitive step of the encoder respects (`Canon.Steps`); the
relation used here keeps the table free of repeats, one declared flag per
name, and every declared flag once set.
-/

namespace HotLoop

/-- The name a node binds in the innermost layer when it runs: a `let` binds
its name, a counted or collection loop its variable. -/
def Node.binds? : Node → Option String
  | .stmt (.declare _ n _) => some n
  | .stmt (.loop _ _ (.range v ..) _) => some v
  | .stmt (.loop _ _ (.each v _) _) => some v
  | _ => none

mutual
theorem Expr.binds_nodes : (e : Expr) → e.nodes.filterMap Node.binds? = []
  | .int .. | .float .. | .bool .. | .ident .. => rfl
  | .array _ es | .call _ _ es => by
    simp only [Expr.nodes, List.filterMap_cons, Node.binds?, Expr.binds_nodesOf es]
  | .binary _ _ x y | .index _ x y => by
    simp only [Expr.nodes, List.filterMap_cons, Node.binds?, List.filterMap_append,
      Expr.binds_nodes x, Expr.binds_nodes y, List.append_nil]
  | .unary _ _ x => by
    simp only [Expr.nodes, List.filterMap_cons, Node.binds?, Expr.binds_nodes x]

theorem Expr.binds_nodesOf : (es : List Expr) → (Expr.nodesOf es).filterMap Node.binds? = []
  | [] => rfl
  | e :: es => by
    simp only [Expr.nodesOf, List.filterMap_append, Expr.binds_nodes e, Expr.binds_nodesOf es,
      List.append_nil]
end

namespace Canon

/-! ## Relations the encoder respects -/

/-- A preorder on encoder states that every primitive step respects. -/
structure Steps (R : Canon → Canon → Prop) : Prop where
  refl : ∀ c, R c c
  trans : ∀ {c₁ c₂ c₃}, R c₁ c₂ → R c₂ c₃ → R c₁ c₃
  tag : ∀ c t, R c (c.tag t)
  byte : ∀ c b, R c (c.byte b)
  varint : ∀ c n, R c (c.varint n)
  word : ∀ c w, R c (c.word w)
  text : ∀ (c : Canon) bs, R c { c with bytes := c.bytes ++ bs }
  markRead : ∀ c n, R c (c.markRead n)
  write : ∀ c n d, R c (c.write n d)
  loopVar : ∀ c n, R c (c.loopVar n).2

variable {R : Canon → Canon → Prop}

mutual
theorem Steps.expr (hR : Steps R) (c : Canon) : (e : Expr) → R c (c.expr e)
  | .int _ n => hR.trans (hR.tag c _) (hR.word _ _)
  | .float _ x => hR.trans (hR.tag c _) (hR.word _ _)
  | .bool _ b => hR.trans (hR.tag c _) (hR.byte _ _)
  | .array _ es => hR.trans (hR.trans (hR.tag c _) (hR.varint _ _)) (Steps.exprs hR _ es)
  | .ident p n => by
    rw [expr_ident]
    exact hR.trans (hR.trans (hR.tag c _) (hR.markRead _ _)) (hR.varint _ _)
  | .binary _ op x y =>
    hR.trans (hR.trans (hR.trans (hR.tag c _) (hR.byte _ _)) (Steps.expr hR _ x)) (Steps.expr hR _ y)
  | .unary _ op x => hR.trans (hR.trans (hR.tag c _) (hR.byte _ _)) (Steps.expr hR _ x)
  | .index _ x i => hR.trans (hR.trans (hR.tag c _) (Steps.expr hR _ x)) (Steps.expr hR _ i)
  | .call _ f args =>
    hR.trans (hR.trans (hR.trans (hR.trans (hR.tag c _) (hR.varint _ _)) (hR.text _ _))
      (hR.varint _ _)) (Steps.exprs hR _ args)

theorem Steps.exprs (hR : Steps R) (c : Canon) : (es : List Expr) → R c (c.exprs es)
  | [] => hR.refl c
  | e :: es => hR.trans (Steps.expr hR c e) (Steps.exprs hR _ es)
end

theorem Steps.exprOpt (hR : Steps R) (c : Canon) : (e : Option Expr) → R c (c.exprOpt e)
  | none => hR.tag c _
  | some e => hR.expr c e

/-- A block is its length followed by its statements. -/
theorem Steps.block_of (hR : Steps R) {c : Canon} {ss : List Stmt}
    (h : R (c.varint ss.length) ((c.varint ss.length).stmts ss)) : R c (c.block ss) := by
  rw [Canon.block_eq]
  exact hR.trans (hR.varint c _) h

-- blocks are unfolded to their statements, so that the recursion is structural
mutual
theorem Steps.stmt (hR : Steps R) (c : Canon) : (s : Stmt) → R c (c.stmt s)
  | .declare _ n v | .assign _ n v => by
    simp only [Canon.stmt]
    exact hR.trans (hR.trans (hR.tag c _) (hR.expr _ v)) (hR.write _ _ _)
  | .compound _ n op v => by
    simp only [Canon.stmt]
    exact hR.trans (hR.trans (hR.trans (hR.trans (hR.tag c _) (hR.byte _ _)) (hR.markRead _ _))
      (hR.expr _ v)) (hR.write _ _ _)
  | .step _ n down => by
    simp only [Canon.stmt]
    exact hR.trans (hR.trans (hR.trans (hR.tag c _) (hR.byte _ _)) (hR.markRead _ _))
      (hR.write _ _ _)
  | .cond _ cnd t e => by
    simp only [Canon.stmt]
    exact hR.trans (hR.trans (hR.trans (hR.tag c _) (hR.expr _ cnd)) (hR.block_of (Steps.stmts hR _ t)))
      (hR.block_of (Steps.stmts hR _ e))
  | .brk _ => by simp only [Canon.stmt]; exact hR.tag c _
  | .cont _ => by simp only [Canon.stmt]; exact hR.tag c _
  | .ret _ v => by simp only [Canon.stmt]; exact hR.trans (hR.tag c _) (hR.exprOpt _ v)
  | .eval _ x => by simp only [Canon.stmt]; exact hR.trans (hR.tag c _) (hR.expr _ x)
  | .loop _ _ (.range v a b st) body => by
    simp only [Canon.stmt]
    exact hR.trans (hR.loopVar c v) (hR.trans (hR.trans (hR.trans (hR.trans (hR.trans
      (hR.tag _ _) (hR.varint _ _)) (hR.expr _ a)) (hR.expr _ b)) (hR.exprOpt _ st))
      (hR.block_of (Steps.stmts hR _ body)))
  | .loop _ _ (.cond cnd) body => by
    simp only [Canon.stmt]
    exact hR.trans (hR.trans (hR.tag c _) (hR.expr _ cnd)) (hR.block_of (Steps.stmts hR _ body))
  | .loop _ _ (.each v coll) body => by
    simp only [Canon.stmt]
    exact hR.trans (hR.loopVar c v) (hR.trans (hR.trans (hR.trans (hR.tag _ _) (hR.varint _ _))
      (hR.expr _ coll)) (hR.block_of (Steps.stmts hR _ body)))

theorem Steps.stmts (hR : Steps R) (c : Canon) : (ss : List Stmt) → R c (c.stmts ss)
  | [] => by simp only [Canon.stmts]; exact hR.refl c
  | s :: ss => by
    simp only [Canon.stmts]
    exact hR.trans (Steps.stmt hR c s) (Steps.stmts hR _ ss)
end

theorem Steps.block (hR : Steps R) (c : Canon) (ss : List Stmt) : R c (c.block ss) :=
  hR.block_of (Steps.stmts hR _ ss)

/-! ## Declared names -/

/-- `n` is in the table and marked declared. -/
def Declares (c : Canon) (n : String) : Prop :=
  ∃ i, c.names.toList.idxOf? n = some i ∧ c.declared[i]? = some true

/-- The table has no repeated name and one declared flag per name. -/
structure Wf (c : Canon) : Prop where
  nodup : c.names.toList.Nodup
  size : c.declared.size = c.names.size

/-- `c'` is well formed when `c` is, and keeps every name `c` declares. -/
def Keeps (c c' : Canon) : Prop := (c.Wf → c'.Wf) ∧ ∀ n, c.Declares n → c'.Declares n

theorem Keeps.refl (c : Canon) : Keeps c c := ⟨id, fun _ => id⟩

theorem Keeps.trans {c₁ c₂ c₃ : Canon} (h₁ : Keeps c₁ c₂) (h₂ : Keeps c₂ c₃) : Keeps c₁ c₃ :=
  ⟨h₂.1 ∘ h₁.1, fun n h => h₂.2 n (h₁.2 n h)⟩

theorem keeps_of_eq {c c' : Canon} (hn : c'.names = c.names) (hd : c'.declared = c.declared) :
    Keeps c c' :=
  ⟨fun h => ⟨by rw [hn]; exact h.nodup, by rw [hn, hd]; exact h.size⟩,
    fun _ ⟨i, hi, hd'⟩ => ⟨i, by rw [hn]; exact hi, by rw [hd]; exact hd'⟩⟩

theorem keeps_name (c : Canon) (n : String) : Keeps c (c.name n).2 := by
  by_cases h : n ∈ c.names.toList
  · rw [c.name_of_mem h]
    exact keeps_of_eq rfl rfl
  · have hn : c.names.idxOf? n = none := by
      rw [Array.idxOf?_eq_toList]; simpa using h
    simp only [name, hn]
    refine ⟨fun hw => ⟨?_, ?_⟩, fun m hd => ?_⟩
    · rw [Array.toList_push]
      refine List.nodup_append.mpr ⟨hw.nodup, List.nodup_singleton n, fun a ha b hb he => ?_⟩
      rw [List.mem_singleton] at hb
      exact h (hb ▸ he ▸ ha)
    · simp [hw.size]
    obtain ⟨i, hi, hd⟩ := hd
    refine ⟨i, ?_, ?_⟩
    · have hm : m ∈ c.names.toList := List.isSome_idxOf?.mp (by rw [hi]; rfl)
      rw [Array.toList_push, List.idxOf?_of_mem (List.mem_append_left _ hm),
        List.idxOf_append_of_mem hm, ← List.idxOf?_of_mem hm, hi]
    · have hlt : i < c.declared.size := by
        by_contra hge
        simp [Array.getElem?_eq_none (Nat.le_of_not_lt hge)] at hd
      rw [Array.getElem?_eq_getElem hlt] at hd
      rw [Array.getElem?_push_lt hlt, hd]

theorem keeps_declare {c c' : Canon} (i : Nat) (hn : c'.names = c.names)
    (hd : c'.declared = c.declared.set! i true) : Keeps c c' := by
  refine ⟨fun hw => ⟨hn ▸ hw.nodup, by rw [hn, hd, Array.size_set!]; exact hw.size⟩,
    fun m ⟨j, hj, hdj⟩ => ⟨j, hn ▸ hj, ?_⟩⟩
  have hlt : j < c.declared.size := by
    by_contra hge
    simp [Array.getElem?_eq_none (Nat.le_of_not_lt hge)] at hdj
  rw [hd, Array.set!_eq_setIfInBounds, Array.getElem?_setIfInBounds]
  split <;> simp_all

theorem keeps_write (c : Canon) (n : String) (d : Bool) : Keeps c (c.write n d) := by
  rcases hname : c.name n with ⟨i, c₁⟩
  have h₁ : Keeps c c₁ := by
    have := c.keeps_name n
    rwa [hname] at this
  have h₂ : Keeps c₁ { c₁ with assigned := c₁.assigned.set! i true } := keeps_of_eq rfl rfl
  have h₃ : ∀ c₂ : Canon, Keeps c₂ (c₂.varint i) := fun _ => keeps_of_eq rfl rfl
  cases d with
  | false =>
    simp only [write, hname, Bool.false_eq_true, ↓reduceIte]
    exact (h₁.trans h₂).trans (h₃ _)
  | true =>
    simp only [write, hname, ↓reduceIte]
    refine ((h₁.trans h₂).trans ?_).trans (h₃ _)
    exact keeps_declare i rfl rfl

theorem keeps_loopVar (c : Canon) (n : String) : Keeps c (c.loopVar n).2 := by
  rcases hname : c.name n with ⟨i, c₁⟩
  have h₁ : Keeps c c₁ := by
    have := c.keeps_name n
    rwa [hname] at this
  simp only [loopVar, hname]
  exact h₁.trans (keeps_declare i rfl rfl)

/-- Every step of the encoder keeps the table well formed and its declared
names declared. -/
theorem keeps_steps : Steps Keeps where
  refl := Keeps.refl
  trans := Keeps.trans
  tag _ _ := keeps_of_eq rfl rfl
  byte _ _ := keeps_of_eq rfl rfl
  varint _ _ := keeps_of_eq rfl rfl
  word _ _ := keeps_of_eq rfl rfl
  text _ _ := keeps_of_eq rfl rfl
  markRead c n := (c.keeps_name n).trans (keeps_of_eq rfl rfl)
  write := keeps_write
  loopVar := keeps_loopVar

/-- The number `name` gives is the name's index in the table it leaves. -/
theorem idxOf?_name (c : Canon) (n : String) :
    (c.name n).2.names.toList.idxOf? n = some (c.name n).1 := by
  by_cases h : n ∈ c.names.toList
  · rw [c.name_of_mem h, List.idxOf?_of_mem h]
  · obtain ⟨h₁, h₂, -⟩ := c.name_of_not_mem h
    rw [h₁, h₂, Array.toList_push, List.idxOf?_of_mem (List.mem_append_right _ (List.mem_singleton_self n)),
      List.idxOf_append_of_notMem h, List.idxOf_cons_self]
    simp

/-- Marking the flag of a name's index declares the name. -/
private theorem declares_of_set {c c' : Canon} {n : String} {i : Nat} (hw : c.Wf)
    (hi : c.names.toList.idxOf? n = some i) (hn : c'.names = c.names)
    (hd : c'.declared = c.declared.set! i true) : c'.Declares n := by
  have hlt : i < c.declared.size := by
    obtain ⟨hlt, -⟩ := List.idxOf?_eq_some_iff.mp hi
    rw [hw.size]; simpa using hlt
  refine ⟨i, hn ▸ hi, ?_⟩
  rw [hd, Array.set!_eq_setIfInBounds, Array.getElem?_setIfInBounds, if_pos rfl, if_pos hlt]

theorem Wf.declares_write {c : Canon} (hw : c.Wf) (n : String) : (c.write n true).Declares n := by
  rcases hname : c.name n with ⟨i, c₁⟩
  have hw₁ : c₁.Wf := by
    have := (c.keeps_name n).1 hw
    rwa [hname] at this
  have hi : c₁.names.toList.idxOf? n = some i := by
    have := c.idxOf?_name n
    rwa [hname] at this
  simp only [write, hname, ↓reduceIte]
  exact declares_of_set (c := { c₁ with assigned := c₁.assigned.set! i true })
    ⟨hw₁.nodup, hw₁.size⟩ hi rfl rfl

theorem Wf.declares_loopVar {c : Canon} (hw : c.Wf) (n : String) : (c.loopVar n).2.Declares n := by
  rcases hname : c.name n with ⟨i, c₁⟩
  have hw₁ : c₁.Wf := by
    have := (c.keeps_name n).1 hw
    rwa [hname] at this
  have hi : c₁.names.toList.idxOf? n = some i := by
    have := c.idxOf?_name n
    rwa [hname] at this
  simp only [loopVar, hname]
  exact declares_of_set hw₁ hi rfl rfl

/-- A name declared before a step of the encoder stays declared. -/
theorem Declares.keep {c c' : Canon} {n : String} (h : c.Declares n) (hk : Keeps c c') :
    c'.Declares n :=
  hk.2 n h

/-- A block declares what its statements declare after its length. -/
theorem Declares.block {c : Canon} {ss : List Stmt} {n : String}
    (h : ((c.varint ss.length).stmts ss).Declares n) : (c.block ss).Declares n := by
  rw [Canon.block_eq]
  exact h

-- blocks are unfolded to their statements, so that the recursion is structural
mutual
/-- Every name a statement binds is declared once it is encoded. -/
theorem Wf.declares_stmt {c : Canon} (hw : c.Wf) :
    (s : Stmt) → ∀ n ∈ s.nodes.filterMap Node.binds?, (c.stmt s).Declares n
  | .declare _ x v, n, h => by
    simp only [Stmt.nodes, List.filterMap_cons, Node.binds?, Expr.binds_nodes,
      List.mem_singleton] at h
    subst h
    simp only [Canon.stmt]
    exact Wf.declares_write ((keeps_steps.expr _ v).1 ((keeps_steps.tag c .declare).1 hw)) n
  | .assign _ _ v, n, h | .compound _ _ _ v, n, h | .eval _ v, n, h | .ret _ (some v), n, h => by
    simp only [Stmt.nodes, List.filterMap_cons, Node.binds?, Expr.binds_nodes, List.not_mem_nil] at h
  | .step .., n, h | .brk _, n, h | .cont _, n, h | .ret _ none, n, h => by
    simp only [Stmt.nodes, List.filterMap_cons, Node.binds?, List.filterMap_nil,
      List.not_mem_nil] at h
  | .cond _ cnd t e, n, h => by
    simp only [Stmt.nodes, List.filterMap_cons, Node.binds?, List.filterMap_append,
      Expr.binds_nodes, List.nil_append, List.mem_append] at h
    have hc := (keeps_steps.expr _ cnd).1 ((keeps_steps.tag c .cond).1 hw)
    simp only [Canon.stmt]
    rcases h with h | h
    · exact (Wf.declares_stmts ((keeps_steps.varint _ _).1 hc) t n h).block.keep
        (keeps_steps.block _ e)
    · exact (Wf.declares_stmts ((keeps_steps.varint _ _).1 ((keeps_steps.block _ t).1 hc)) e n h).block
  | .loop _ _ (.range v a b st) body, n, h => by
    simp only [Stmt.nodes, List.filterMap_cons, Node.binds?, List.filterMap_append,
      Expr.binds_nodesOf, List.nil_append, List.mem_cons] at h
    rcases hv : c.loopVar v with ⟨i, c₁⟩
    have hv₁ : c₁.Declares v := by
      have := hw.declares_loopVar v
      rwa [hv] at this
    have hw₁ : c₁.Wf := by
      have := (keeps_loopVar c v).1 hw
      rwa [hv] at this
    simp only [Canon.stmt, hv]
    have hk := keeps_steps.trans (keeps_steps.trans (keeps_steps.trans (keeps_steps.trans
      (keeps_steps.tag c₁ .range) (keeps_steps.varint _ i)) (keeps_steps.expr _ a))
      (keeps_steps.expr _ b)) (keeps_steps.exprOpt _ st)
    rcases h with rfl | h
    · exact (hv₁.keep hk).keep (keeps_steps.block _ body)
    · exact (Wf.declares_stmts ((keeps_steps.varint _ _).1 (hk.1 hw₁)) body n h).block
  | .loop _ _ (.cond cnd) body, n, h => by
    simp only [Stmt.nodes, List.filterMap_cons, Node.binds?, List.filterMap_append,
      Expr.binds_nodesOf, List.nil_append] at h
    have hc := (keeps_steps.expr _ cnd).1 ((keeps_steps.tag c .whileLoop).1 hw)
    simp only [Canon.stmt]
    exact (Wf.declares_stmts ((keeps_steps.varint _ _).1 hc) body n h).block
  | .loop _ _ (.each v coll) body, n, h => by
    simp only [Stmt.nodes, List.filterMap_cons, Node.binds?, List.filterMap_append,
      Expr.binds_nodesOf, List.nil_append, List.mem_cons] at h
    rcases hv : c.loopVar v with ⟨i, c₁⟩
    have hv₁ : c₁.Declares v := by
      have := hw.declares_loopVar v
      rwa [hv] at this
    have hw₁ : c₁.Wf := by
      have := (keeps_loopVar c v).1 hw
      rwa [hv] at this
    simp only [Canon.stmt, hv]
    have hk := keeps_steps.trans (keeps_steps.trans (keeps_steps.tag c₁ .each)
      (keeps_steps.varint _ i)) (keeps_steps.expr _ coll)
    rcases h with rfl | h
    · exact (hv₁.keep hk).keep (keeps_steps.block _ body)
    · exact (Wf.declares_stmts ((keeps_steps.varint _ _).1 (hk.1 hw₁)) body n h).block

theorem Wf.declares_stmts {c : Canon} (hw : c.Wf) :
    (ss : List Stmt) → ∀ n ∈ (Stmt.nodesOf ss).filterMap Node.binds?, (c.stmts ss).Declares n
  | [], n, h => by simp [Stmt.nodesOf] at h
  | s :: ss, n, h => by
    simp only [Stmt.nodesOf, List.filterMap_append, List.mem_append] at h
    simp only [Canon.stmts]
    rcases h with h | h
    · exact (Wf.declares_stmt hw s n h).keep (keeps_steps.stmts _ ss)
    · exact Wf.declares_stmts ((keeps_steps.stmt c s).1 hw) ss n h
end

end Canon

/-! ## The slots of a loop -/

namespace Loop

variable (l : Loop)

theorem canon_wf : l.canon.Wf := by
  have h0 : ({} : Canon).Wf := ⟨List.nodup_nil, rfl⟩
  unfold Loop.canon
  apply (Canon.keeps_steps.stmt _ l.toStmt).1
  split
  · exact h0
  · rename_i v _ _ _ _
    exact ⟨(Canon.keeps_loopVar {} v).1 h0 |>.nodup, (Canon.keeps_loopVar {} v).1 h0 |>.size⟩
  · rename_i v _ _
    exact ⟨(Canon.keeps_loopVar {} v).1 h0 |>.nodup, (Canon.keeps_loopVar {} v).1 h0 |>.size⟩

/-- Every name a loop binds is declared in its encoding. -/
theorem declares_canon : ∀ n ∈ l.toStmt.nodes.filterMap Node.binds?, l.canon.Declares n := by
  have h0 : ({} : Canon).Wf := ⟨List.nodup_nil, rfl⟩
  intro n hn
  have hv : ∀ v, ({ (({} : Canon).loopVar v).2 with counter := 0 } : Canon).Wf := fun v =>
    ⟨((Canon.keeps_loopVar {} v).1 h0).nodup, ((Canon.keeps_loopVar {} v).1 h0).size⟩
  unfold Loop.canon
  split
  · exact Canon.Wf.declares_stmt h0 _ n hn
  · exact Canon.Wf.declares_stmt (hv _) _ n hn
  · exact Canon.Wf.declares_stmt (hv _) _ n hn

@[simp] theorem shape_names : l.shape.names = l.canon.names := rfl

@[simp] theorem shape_declared : l.shape.declared = l.canon.declared := rfl

theorem shape_promoted : l.shape.promoted.toList =
    (List.range l.canon.names.size).filter fun i => l.canon.assigned[i]! || l.canon.declared[i]! := by
  simp [Loop.shape]

theorem promoted_nodup : l.shape.promoted.toList.Nodup := by
  rw [shape_promoted]
  exact List.nodup_range.filter _

theorem shape_slot {i : Nat} (hi : i < l.canon.names.size) :
    l.shape.slot i = match l.shape.promoted.toList.idxOf? i with
      | some s => (s : Int)
      | none => -1 := by
  -- split on the promoted position first, so that both sides reduce all the way
  have hp := shape_promoted l
  cases hx : l.shape.promoted.toList.idxOf? i with
  | none =>
    rw [hp] at hx
    simp [Loop.shape, Shape.slot, Array.getD_eq_getD_getElem?, hi, hx]
  | some s =>
    rw [hp] at hx
    simp [Loop.shape, Shape.slot, Array.getD_eq_getD_getElem?, hi, hx]

/-- A name has slot `s` when it is numbered `i` and `i` is the `s`-th
promoted index. -/
theorem slotOf?_eq_some {n : String} {s : Nat} :
    l.shape.slotOf? n = some s ↔
      ∃ i, l.canon.names.toList.idxOf? n = some i ∧ l.shape.promoted.toList.idxOf? i = some s := by
  unfold Shape.slotOf? Shape.index?
  rw [shape_names, Array.idxOf?_eq_toList]
  cases hi : l.canon.names.toList.idxOf? n with
  | none => simp
  | some i =>
    have hlt : i < l.canon.names.size := by
      obtain ⟨h, -⟩ := List.idxOf?_eq_some_iff.mp hi
      simpa using h
    simp only [shape_slot l hlt]
    cases hs : l.shape.promoted.toList.idxOf? i with
    | none => simp [hs]
    | some s' => simp [hs]

private theorem getElem?_of_idxOf? {α : Type} [BEq α] [LawfulBEq α] {xs : List α} {a : α} {i : Nat}
    (h : xs.idxOf? a = some i) : xs[i]? = some a := by
  obtain ⟨hi, he, -⟩ := List.idxOf?_eq_some_iff.mp h
  rw [List.getElem?_eq_getElem hi, he]

private theorem idxOf?_getElem {α : Type} [BEq α] [LawfulBEq α] {xs : List α} (hd : xs.Nodup)
    {i : Nat} (hi : i < xs.length) : xs.idxOf? xs[i] = some i := by
  refine List.idxOf?_eq_some_iff.mpr ⟨hi, rfl, fun j hj he => ?_⟩
  have := hd.getElem_inj_iff.mp he
  omega

variable {l}

/-- Slots are numbered below the number of slots. -/
theorem slotOf?_lt {n : String} {s : Nat} (h : l.shape.slotOf? n = some s) : s < l.shape.numSlots := by
  obtain ⟨i, -, hs⟩ := (slotOf?_eq_some l).mp h
  obtain ⟨hlt, -, -⟩ := List.idxOf?_eq_some_iff.mp hs
  simpa [Shape.numSlots] using hlt

/-- The name of slot `s` sits at the `s`-th promoted index of the table. -/
theorem slotOf?_name {n : String} {s : Nat} (h : l.shape.slotOf? n = some s) :
    ∃ i, l.shape.promoted.toList[s]? = some i ∧ l.canon.names.toList[i]? = some n := by
  obtain ⟨i, hi, hs⟩ := (slotOf?_eq_some l).mp h
  exact ⟨i, getElem?_of_idxOf? hs, getElem?_of_idxOf? hi⟩

/-- Distinct names own distinct slots. -/
theorem slotOf?_inj {n n' : String} {s : Nat} (h : l.shape.slotOf? n = some s)
    (h' : l.shape.slotOf? n' = some s) : n = n' := by
  obtain ⟨i, hi, hn⟩ := slotOf?_name h
  obtain ⟨i', hi', hn'⟩ := slotOf?_name h'
  rw [hi] at hi'
  cases hi'
  rw [hn] at hn'
  exact Option.some.inj hn'

/-- Every slot belongs to the name at its promoted index. -/
theorem slotOf?_promoted {s : Nat} (hs : s < l.shape.numSlots) :
    l.shape.slotOf? l.shape.names[l.shape.promoted[s]!]! = some s := by
  have hs' : s < l.shape.promoted.toList.length := by simpa [Shape.numSlots] using hs
  obtain ⟨i, hi⟩ : ∃ i, l.shape.promoted.toList[s] = i := ⟨_, rfl⟩
  have hp : l.shape.promoted[s]! = i := by
    rw [getElem!_pos l.shape.promoted s (by simpa [Shape.numSlots] using hs), ← hi]
    exact (Array.getElem_toList hs').symm
  have hmem : i ∈ l.shape.promoted.toList := hi ▸ List.getElem_mem hs'
  have hlt : i < l.canon.names.size := by
    rw [shape_promoted] at hmem
    simpa using (List.mem_filter.mp hmem).1
  have hlt' : i < l.canon.names.toList.length := by simpa using hlt
  have hn : l.shape.names[i]! = l.canon.names.toList[i] := by
    rw [shape_names, getElem!_pos l.canon.names i hlt]
    simp
  rw [hp, hn]
  apply (slotOf?_eq_some l).mpr
  exact ⟨i, idxOf?_getElem l.canon_wf.nodup hlt', hi ▸ idxOf?_getElem l.promoted_nodup hs'⟩

/-- A name the encoding declares has a slot, marked declared. -/
theorem slotOf?_of_declares {n : String} (h : l.canon.Declares n) :
    ∃ s, l.shape.slotOf? n = some s ∧ l.shape.declared[l.shape.promoted[s]!]! = true := by
  obtain ⟨i, hi, hd⟩ := h
  have hlt : i < l.canon.names.size := by
    obtain ⟨h, -, -⟩ := List.idxOf?_eq_some_iff.mp hi
    simpa using h
  have hdi : l.canon.declared[i]! = true := by
    have hlt' : i < l.canon.declared.size := by rw [l.canon_wf.size]; exact hlt
    rw [getElem!_pos l.canon.declared i hlt']
    rw [Array.getElem?_eq_getElem hlt'] at hd
    exact Option.some.inj hd
  have hmem : i ∈ l.shape.promoted.toList := by
    rw [shape_promoted]
    simp [hlt, hdi]
  obtain ⟨s, hs⟩ : ∃ s, l.shape.promoted.toList.idxOf? i = some s :=
    Option.isSome_iff_exists.mp (List.isSome_idxOf?.mpr hmem)
  refine ⟨s, (slotOf?_eq_some l).mpr ⟨i, hi, hs⟩, ?_⟩
  obtain ⟨hs', he, -⟩ := List.idxOf?_eq_some_iff.mp hs
  have hp : l.shape.promoted[s]! = i := by
    rw [getElem!_pos l.shape.promoted s (by simpa using hs')]
    simpa using he
  rw [hp, shape_declared, hdi]

end Loop

end HotLoop
