import Mathlib
import HotLoop.Proofs.Plan.Renaming
/-!
# HotLoop.Proofs.Shape.Exact

The canonical encoding of a loop is exact up to renaming.

Two loops have the same encoding exactly when the second is the first with
its variables renamed by a permutation of names, positions and loop keys
aside (`canon_bytes_eq_iff_renaming`). Reading the bytes back
(`rename_eq_of_canon_bytes`) relates each variable of the first loop to the
variable of the second with the same number; reading them the other way
undoes it, so the relation is injective on the variables and extends to a
permutation of all names. Conversely the encoder commutes with injective
renamings (`Loop.canon_rename`).

Loops related by a renaming then have the same shape up to names, the same
pre-order nodes up to names and positions, and the strategy choice makes
corresponding selections for them.
-/

namespace HotLoop

/-! ## From an injective renaming to a permutation -/

/-- A renaming that is injective on the variables of a loop acts on it as
some permutation of all names. -/
theorem exists_perm_of_injOn {l : Loop} {σ : String → String}
    (h : Set.InjOn σ {a | a ∈ l.vars}) : ∃ τ : Equiv.Perm String, l.rename τ = l.rename σ := by
  classical
  obtain ⟨τ, hτ⟩ := Equiv.Perm.exists_extending_pair (fun a : l.vars.toFinset => (a : String))
    (fun a => σ a) Subtype.val_injective
    (fun a b hab => Subtype.ext (h (List.mem_toFinset.mp a.2) (List.mem_toFinset.mp b.2) hab))
  exact ⟨τ, Loop.rename_congr l fun a ha => hτ ⟨a, List.mem_toFinset.mpr ha⟩⟩

/-! ## Equal bytes -/

/-- Loops with the same bytes are renamings of each other by a permutation. -/
theorem exists_perm_of_canon_bytes {l₁ l₂ : Loop} (h : l₁.canon.bytes = l₂.canon.bytes) :
    ∃ τ : Equiv.Perm String, l₂.rename id = l₁.rename τ := by
  set σ := fun a => l₂.canon.names.toList.getD (l₁.canon.names.toList.idxOf a) a
  set σ' := fun a => l₁.canon.names.toList.getD (l₂.canon.names.toList.idxOf a) a
  have h₁₂ : l₂.rename id = l₁.rename σ := rename_eq_of_canon_bytes h
  have h₂₁ : l₁.rename id = l₂.rename σ' := rename_eq_of_canon_bytes h.symm
  -- reading the bytes the other way undoes `σ` on the variables of `l₁`
  have hback : l₁.rename id = l₁.rename (σ' ∘ σ) := by
    rw [h₂₁, ← Loop.rename_rename σ σ', ← h₁₂, Loop.rename_rename]
    rfl
  have hinv : ∀ a ∈ l₁.vars, σ' (σ a) = a := fun a ha =>
    ((Stmt.rename_eq_rename_iff l₁.toStmt).mp (congrArg Loop.toStmt hback) a ha).symm
  have hinj : Set.InjOn σ {a | a ∈ l₁.vars} := fun a ha b hb hab => by
    rw [← hinv a ha, ← hinv b hb, hab]
  obtain ⟨τ, hτ⟩ := exists_perm_of_injOn hinj
  exact ⟨τ, by rw [h₁₂, hτ]⟩

/-- Renamed loops have the same bytes. -/
theorem canon_bytes_of_rename {l₁ l₂ : Loop} {τ : String → String} (hτ : Function.Injective τ)
    (h : l₂.rename id = l₁.rename τ) : l₁.canon.bytes = l₂.canon.bytes := by
  have hb := congrArg (fun l => l.canon.bytes) h
  simp only [Loop.canon_rename hτ, Loop.canon_rename Function.injective_id,
    Canon.renameNames_bytes] at hb
  exact hb.symm

/-! ## What a renaming keeps -/

section Consequences

variable {l₁ l₂ : Loop} {τ : String → String}

theorem shape_eq_of_rename (hτ : Function.Injective τ) (h : l₂.rename id = l₁.rename τ) :
    l₂.shape = l₁.shape.rename τ := by
  have hs := congrArg Loop.shape h
  rwa [Loop.shape_rename Function.injective_id, Loop.shape_rename hτ, Shape.rename_id] at hs

theorem nodes_eq_of_rename (h : l₂.rename id = l₁.rename τ) :
    l₂.nodes.map (Node.rename id) = l₁.nodes.map (Node.rename τ) := by
  rw [← Loop.nodes_rename, ← Loop.nodes_rename, h]

theorem choose_eq_of_rename (hτ : Function.Injective τ) (h : l₂.rename id = l₁.rename τ)
    (o : PlanOptions) (t : Tier) (a : Access) :
    (Selection.choose o l₂ l₂.shape t a).rename id =
      (Selection.choose o l₁ l₁.shape t a).rename τ := by
  rw [← Selection.choose_rename Function.injective_id o l₂ l₂.shape t a (Loop.counter_lt_size l₂),
    h, Shape.rename_id, shape_eq_of_rename hτ h,
    Selection.choose_rename hτ o l₁ l₁.shape t a (Loop.counter_lt_size l₁)]

end Consequences

/-- The canonical encoding is exact up to renaming: two loops have the same
bytes exactly when the second is the first renamed by a permutation of
names, positions and loop keys aside. A renaming between two loops keeps
their shape apart from the names (kind, counter, flags, slots and hash),
their pre-order nodes apart from names and positions, and the selection the
strategy choice makes for them, for any options, tier and access. -/
theorem canon_bytes_eq_iff_renaming (l₁ l₂ : Loop) :
    (l₁.canon.bytes = l₂.canon.bytes ↔ ∃ τ : Equiv.Perm String, l₂.rename id = l₁.rename τ) ∧
    ∀ τ : Equiv.Perm String, l₂.rename id = l₁.rename τ →
      l₂.shape = l₁.shape.rename τ ∧
      l₂.nodes.map (Node.rename id) = l₁.nodes.map (Node.rename τ) ∧
      ∀ o t a, (Selection.choose o l₂ l₂.shape t a).rename id =
        (Selection.choose o l₁ l₁.shape t a).rename τ := by
  constructor
  · constructor
    · exact exists_perm_of_canon_bytes
    · rintro ⟨τ, h⟩
      exact canon_bytes_of_rename τ.injective h
  · intro τ h
    exact ⟨shape_eq_of_rename τ.injective h, nodes_eq_of_rename h, choose_eq_of_rename τ.injective h⟩

/-- Renaming `i` to `j` and `s` to `t` in `for i in 0..3 { s += i }`, and
moving the loop, keeps its bytes and renames its shape. -/
theorem canon_sum_loop_renamed :
    (Loop.mk 0 Pos.none (.range "i" (.int Pos.none 0) (.int Pos.none 3) none)
        [.compound Pos.none "s" .add (.ident Pos.none "i")]).canon.bytes =
      (Loop.mk 5 ⟨2, 1⟩ (.range "j" (.int ⟨2, 10⟩ 0) (.int ⟨2, 13⟩ 3) none)
        [.compound ⟨3, 3⟩ "t" .add (.ident ⟨3, 8⟩ "j")]).canon.bytes ∧
    (Loop.mk 5 ⟨2, 1⟩ (.range "j" (.int ⟨2, 10⟩ 0) (.int ⟨2, 13⟩ 3) none)
        [.compound ⟨3, 3⟩ "t" .add (.ident ⟨3, 8⟩ "j")]).shape =
      (Loop.mk 0 Pos.none (.range "i" (.int Pos.none 0) (.int Pos.none 3) none)
        [.compound Pos.none "s" .add (.ident Pos.none "i")]).shape.rename
        (Equiv.swap "i" "j" * Equiv.swap "s" "t") :=
  ⟨(canon_bytes_eq_iff_renaming _ _).1.2 ⟨Equiv.swap "i" "j" * Equiv.swap "s" "t", rfl⟩,
    ((canon_bytes_eq_iff_renaming _ _).2 (Equiv.swap "i" "j" * Equiv.swap "s" "t") rfl).1⟩

end HotLoop
