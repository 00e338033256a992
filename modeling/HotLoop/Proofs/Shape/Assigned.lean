import HotLoop.Proofs.Shape.Slots
/-!
# HotLoop.Proofs.Shape.Assigned

Every name a loop's body writes has a slot. The encoder marks a name
assigned when it writes it, and no later step clears the mark: the table
only grows (`Canon.names_prefix_stmt`), a new name comes with a clear
flag, and writes only set flags. The shape promotes every assigned name,
so a statement of the body that writes `n` gives `n` a slot
(`Loop.slotOf?_of_assigned`).
-/

namespace HotLoop

namespace Canon

/-- `n` is in the table and marked assigned. -/
def Assigns (c : Canon) (n : String) : Prop :=
  ∃ i, c.names.toList.idxOf? n = some i ∧ c.assigned[i]? = some true

/-- `c'` keeps one assigned flag per name when `c` does, and every name
`c` marks assigned. -/
def KeepsAssigned (c c' : Canon) : Prop :=
  (c.assigned.size = c.names.size → c'.assigned.size = c'.names.size) ∧
    ∀ n, c.Assigns n → c'.Assigns n

theorem KeepsAssigned.trans {c₁ c₂ c₃ : Canon} (h₁ : KeepsAssigned c₁ c₂) (h₂ : KeepsAssigned c₂ c₃) :
    KeepsAssigned c₁ c₃ :=
  ⟨h₂.1 ∘ h₁.1, fun n h => h₂.2 n (h₁.2 n h)⟩

theorem keepsAssigned_of_eq {c c' : Canon} (hn : c'.names = c.names) (ha : c'.assigned = c.assigned) :
    KeepsAssigned c c' := by
  refine ⟨fun h => by rw [hn, ha]; exact h, fun _ h => ?_⟩
  obtain ⟨i, hi, ha'⟩ := h
  exact ⟨i, by rw [hn]; exact hi, by rw [ha]; exact ha'⟩

theorem keepsAssigned_name (c : Canon) (n : String) : KeepsAssigned c (c.name n).2 := by
  by_cases h : n ∈ c.names.toList
  · rw [c.name_of_mem h]
    exact keepsAssigned_of_eq rfl rfl
  · have hn : c.names.idxOf? n = none := by
      rw [Array.idxOf?_eq_toList]; simpa using h
    simp only [name, hn]
    refine ⟨fun hs => by simp [hs], fun m hm => ?_⟩
    obtain ⟨i, hi, ha⟩ := hm
    refine ⟨i, ?_, ?_⟩
    · -- an old name keeps its index in the longer table
      have hm : m ∈ c.names.toList := List.isSome_idxOf?.mp (by rw [hi]; rfl)
      rw [Array.toList_push, List.idxOf?_of_mem (List.mem_append_left _ hm),
        List.idxOf_append_of_mem hm, ← List.idxOf?_of_mem hm, hi]
    · have hlt : i < c.assigned.size := by
        by_contra hge
        simp [Array.getElem?_eq_none (Nat.le_of_not_lt hge)] at ha
      rw [Array.getElem?_eq_getElem hlt] at ha
      rw [Array.getElem?_push_lt hlt, ha]

/-- Setting a flag keeps every flag that was set. -/
theorem keepsAssigned_set {c c' : Canon} (i : Nat) (hn : c'.names = c.names)
    (ha : c'.assigned = c.assigned.set! i true) : KeepsAssigned c c' := by
  refine ⟨fun hs => by rw [hn, ha, Array.size_set!]; exact hs, fun m hm => ?_⟩
  obtain ⟨j, hj, haj⟩ := hm
  refine ⟨j, hn ▸ hj, ?_⟩
  rw [ha, Array.set!_eq_setIfInBounds, Array.getElem?_setIfInBounds]
  split
  · rename_i hij
    subst hij
    have hlt : i < c.assigned.size := by
      by_contra hge
      simp [Array.getElem?_eq_none (Nat.le_of_not_lt hge)] at haj
    simp [hlt]
  · exact haj

theorem keepsAssigned_write (c : Canon) (n : String) (d : Bool) : KeepsAssigned c (c.write n d) := by
  rcases hname : c.name n with ⟨i, c₁⟩
  have h₁ : KeepsAssigned c c₁ := by
    have := c.keepsAssigned_name n
    rwa [hname] at this
  have h₂ : KeepsAssigned c₁ { c₁ with assigned := c₁.assigned.set! i true } :=
    keepsAssigned_set i rfl rfl
  have h₃ : ∀ c₂ : Canon, KeepsAssigned c₂ (c₂.varint i) := fun _ => keepsAssigned_of_eq rfl rfl
  cases d with
  | false =>
    simp only [write, hname, Bool.false_eq_true, ↓reduceIte]
    exact (h₁.trans h₂).trans (h₃ _)
  | true =>
    simp only [write, hname, ↓reduceIte]
    exact ((h₁.trans h₂).trans (keepsAssigned_of_eq rfl rfl)).trans (h₃ _)

theorem keepsAssigned_loopVar (c : Canon) (n : String) : KeepsAssigned c (c.loopVar n).2 := by
  rcases hname : c.name n with ⟨i, c₁⟩
  have h₁ : KeepsAssigned c c₁ := by
    have := c.keepsAssigned_name n
    rwa [hname] at this
  simp only [loopVar, hname]
  exact h₁.trans (keepsAssigned_set i rfl rfl)

/-- Every step of the encoder keeps the assigned flags. -/
theorem keepsAssigned_steps : Steps KeepsAssigned where
  refl _ := keepsAssigned_of_eq rfl rfl
  trans := KeepsAssigned.trans
  tag _ _ := keepsAssigned_of_eq rfl rfl
  byte _ _ := keepsAssigned_of_eq rfl rfl
  varint _ _ := keepsAssigned_of_eq rfl rfl
  word _ _ := keepsAssigned_of_eq rfl rfl
  text _ _ := keepsAssigned_of_eq rfl rfl
  markRead c n := (c.keepsAssigned_name n).trans (keepsAssigned_of_eq rfl rfl)
  write := keepsAssigned_write
  loopVar := keepsAssigned_loopVar

/-- A write marks its name assigned. -/
theorem assigns_write {c : Canon} (hs : c.assigned.size = c.names.size) (n : String) (d : Bool) :
    (c.write n d).Assigns n := by
  rcases hname : c.name n with ⟨i, c₁⟩
  have hs₁ : c₁.assigned.size = c₁.names.size := by
    have := (c.keepsAssigned_name n).1 hs
    rwa [hname] at this
  have hi : c₁.names.toList.idxOf? n = some i := by
    have := c.idxOf?_name n
    rwa [hname] at this
  have hlt : i < c₁.assigned.size := by
    obtain ⟨hlt, -⟩ := List.idxOf?_eq_some_iff.mp hi
    rw [hs₁]; simpa using hlt
  have hset : ({ c₁ with assigned := c₁.assigned.set! i true } : Canon).Assigns n :=
    ⟨i, hi, by simp [Array.set!_eq_setIfInBounds, hlt]⟩
  cases d with
  | false =>
    simp only [write, hname, Bool.false_eq_true, ↓reduceIte]
    exact hset
  | true =>
    simp only [write, hname, ↓reduceIte]
    exact hset

/-- A statement that writes `n` marks it assigned. -/
theorem assigns_stmt {c : Canon} (hs : c.assigned.size = c.names.size) {n : String} :
    (s : Stmt) → s.assignedName? = some n → (c.stmt s).Assigns n
  | .declare _ x v, h | .assign _ x v, h => by
    cases h
    simp only [Canon.stmt]
    exact assigns_write ((keepsAssigned_steps.trans (keepsAssigned_steps.tag c _)
      (keepsAssigned_steps.expr _ v)).1 hs) _ _
  | .compound _ x op v, h => by
    cases h
    simp only [Canon.stmt]
    exact assigns_write ((keepsAssigned_steps.trans (keepsAssigned_steps.trans
      (keepsAssigned_steps.trans (keepsAssigned_steps.tag c _) (keepsAssigned_steps.byte _ _))
      (keepsAssigned_steps.markRead _ _)) (keepsAssigned_steps.expr _ v)).1 hs) _ _
  | .step _ x down, h => by
    cases h
    simp only [Canon.stmt]
    exact assigns_write ((keepsAssigned_steps.trans (keepsAssigned_steps.trans
      (keepsAssigned_steps.tag c _) (keepsAssigned_steps.byte _ _)) (keepsAssigned_steps.markRead _ _)).1 hs)
      _ _
  | .cond .., h | .brk _, h | .cont _, h | .ret .., h | .eval .., h | .loop .., h => by cases h

/-- A statement of a list that writes `n` marks it assigned. -/
theorem assigns_stmts {c : Canon} (hs : c.assigned.size = c.names.size) {n : String} :
    (ss : List Stmt) → ∀ s ∈ ss, s.assignedName? = some n → (c.stmts ss).Assigns n
  | [], _, h, _ => nomatch h
  | s :: ss, t, ht, hn => by
    simp only [Canon.stmts]
    rcases List.mem_cons.mp ht with rfl | ht
    · exact (keepsAssigned_steps.stmts _ ss).2 n (assigns_stmt hs t hn)
    · exact assigns_stmts ((keepsAssigned_steps.stmt c s).1 hs) ss t ht hn

end Canon

namespace Loop

variable {l : Loop}

/-- A statement of a loop's body that writes `n` marks it assigned in the
loop's encoding. -/
theorem canon_assigns {s : Stmt} (hs : s ∈ l.body) {n : String} (hn : s.assignedName? = some n) :
    l.canon.Assigns n := by
  have h0 : ({} : Canon).assigned.size = ({} : Canon).names.size := rfl
  have hv : ∀ v, ({ (({} : Canon).loopVar v).2 with counter := 0 } : Canon).assigned.size =
      ({ (({} : Canon).loopVar v).2 with counter := 0 } : Canon).names.size :=
    fun v => (Canon.keepsAssigned_loopVar {} v).1 h0
  obtain ⟨k, p, hd, b⟩ := l
  -- the body is encoded as a block after the header, from a table with one flag per name
  have hbody : ∀ c : Canon, c.assigned.size = c.names.size → (c.block b).Assigns n := fun c hc => by
    rw [Canon.block_eq]
    exact Canon.assigns_stmts ((Canon.keepsAssigned_steps.varint c _).1 hc) b s hs hn
  unfold Loop.canon Loop.toStmt
  cases hd with
  | cond cnd =>
    simp only [Canon.stmt]
    exact hbody _ ((Canon.keepsAssigned_steps.trans (Canon.keepsAssigned_steps.tag _ _)
      (Canon.keepsAssigned_steps.expr _ cnd)).1 h0)
  | range v a z st =>
    simp only [Canon.stmt]
    rcases hlv : ({ (({} : Canon).loopVar v).2 with counter := 0 } : Canon).loopVar v with ⟨i, c₁⟩
    have hc₁ : c₁.assigned.size = c₁.names.size := by
      have := (Canon.keepsAssigned_loopVar _ v).1 (hv v)
      rwa [hlv] at this
    exact hbody _ ((Canon.keepsAssigned_steps.trans (Canon.keepsAssigned_steps.trans
      (Canon.keepsAssigned_steps.trans (Canon.keepsAssigned_steps.trans (Canon.keepsAssigned_steps.tag _ _)
      (Canon.keepsAssigned_steps.varint _ _)) (Canon.keepsAssigned_steps.expr _ a))
      (Canon.keepsAssigned_steps.expr _ z)) (Canon.keepsAssigned_steps.exprOpt _ st)).1 hc₁)
  | each v coll =>
    simp only [Canon.stmt]
    rcases hlv : ({ (({} : Canon).loopVar v).2 with counter := 0 } : Canon).loopVar v with ⟨i, c₁⟩
    have hc₁ : c₁.assigned.size = c₁.names.size := by
      have := (Canon.keepsAssigned_loopVar _ v).1 (hv v)
      rwa [hlv] at this
    exact hbody _ ((Canon.keepsAssigned_steps.trans (Canon.keepsAssigned_steps.trans
      (Canon.keepsAssigned_steps.tag _ _) (Canon.keepsAssigned_steps.varint _ _))
      (Canon.keepsAssigned_steps.expr _ coll)).1 hc₁)

/-- A name the encoding marks assigned has a slot. -/
theorem slotOf?_of_assigns {n : String} (h : l.canon.Assigns n) : ∃ s, l.shape.slotOf? n = some s := by
  obtain ⟨i, hi, ha⟩ := h
  have hlt : i < l.canon.names.size := by
    obtain ⟨h, -, -⟩ := List.idxOf?_eq_some_iff.mp hi
    simpa using h
  have hai : l.canon.assigned[i]! = true := by
    have hlt' : i < l.canon.assigned.size := by
      by_contra hge
      simp [Array.getElem?_eq_none (Nat.le_of_not_lt hge)] at ha
    rw [getElem!_pos l.canon.assigned i hlt']
    rw [Array.getElem?_eq_getElem hlt'] at ha
    exact Option.some.inj ha
  have hmem : i ∈ l.shape.promoted.toList := by
    rw [shape_promoted]
    simp [hlt, hai]
  obtain ⟨s, hs⟩ : ∃ s, l.shape.promoted.toList.idxOf? i = some s :=
    Option.isSome_iff_exists.mp (List.isSome_idxOf?.mpr hmem)
  exact ⟨s, (slotOf?_eq_some l).mpr ⟨i, hi, hs⟩⟩

/-- Every name the body of a loop writes has a slot. -/
theorem slotOf?_of_assigned {s : Stmt} (hs : s ∈ l.body) {n : String} (hn : s.assignedName? = some n) :
    ∃ t, l.shape.slotOf? n = some t :=
  slotOf?_of_assigns (canon_assigns hs hn)

end Loop

end HotLoop
