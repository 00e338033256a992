import HotLoop.Proofs.Eval.Balance
import HotLoop.Memory.Command
/-!
# HotLoop.Proofs.Memory.Lineage

What a store through an environment can reach.

A store keeps every frame where it is: its slots stay at the same arena
offset, in the same number, and it keeps its mark (`Frame.SamePlace`). An
assignment, a declaration or a write-back through an environment changes
no arena word outside the slots of the environment's own frames
(`Env.assign_spec`, `Env.declare_spec`, `Manager.writeBack_spec`).

A frame table builds the environment seen from a frame by following
parents; `FrameTable.lineage` lists the frames it passes. Running an
environment operation there and storing the result back leaves every
frame outside the lineage as it was, and every frame in it in its place
(`FrameTable.within_spec`).
-/

namespace HotLoop

/-! ## Frames that stay in place -/

namespace Frame

/-- Where the arena's top stood just after the frame was opened: past its
last slot for an arena frame, at its mark for a heap frame. -/
def stop (f : Frame) : Nat :=
  match f.base with
  | some b => b + 8 * f.numSlots
  | none => f.mark

/-- Two records of one frame: the same shape, slots in the same place and
number, the same variables, mark, depth and liveness, and slot tables as
long. -/
structure SamePlace (f f' : Frame) : Prop where
  shape : f'.shape = f.shape
  vars : f'.vars = f.vars
  base : f'.base = f.base
  numSlots : f'.numSlots = f.numSlots
  mark : f'.mark = f.mark
  depth : f'.depth = f.depth
  live : f'.live = f.live
  isSet_size : f'.isSet.size = f.isSet.size
  arrays_size : f'.arrays.size = f.arrays.size
  heap_size : f'.heap.size = f.heap.size

namespace SamePlace

variable {f f' f'' : Frame}

theorem refl (f : Frame) : f.SamePlace f := ⟨rfl, rfl, rfl, rfl, rfl, rfl, rfl, rfl, rfl, rfl⟩

theorem symm (h : f.SamePlace f') : f'.SamePlace f :=
  ⟨h.shape.symm, h.vars.symm, h.base.symm, h.numSlots.symm, h.mark.symm, h.depth.symm, h.live.symm,
    h.isSet_size.symm, h.arrays_size.symm, h.heap_size.symm⟩

theorem trans (h : f.SamePlace f') (h' : f'.SamePlace f'') : f.SamePlace f'' :=
  ⟨h'.shape.trans h.shape, h'.vars.trans h.vars, h'.base.trans h.base, h'.numSlots.trans h.numSlots,
    h'.mark.trans h.mark, h'.depth.trans h.depth, h'.live.trans h.live,
    h'.isSet_size.trans h.isSet_size,
    h'.arrays_size.trans h.arrays_size, h'.heap_size.trans h.heap_size⟩

theorem slotOf? (h : f.SamePlace f') (n : String) : f'.slotOf? n = f.slotOf? n := by
  simp only [Frame.slotOf?, h.shape]

theorem sound (h : f.SamePlace f') (hf : f.Sound) : f'.Sound where
  slot_lt hs := by
    rw [h.slotOf?] at hs
    rw [h.numSlots]
    exact hf.slot_lt hs
  slot_inj hs hs' := by
    rw [h.slotOf?] at hs hs'
    exact hf.slot_inj hs hs'
  isSet_size := by rw [h.isSet_size, h.numSlots]; exact hf.isSet_size
  arrays_size := by rw [h.arrays_size, h.numSlots]; exact hf.arrays_size
  heap_size := by rw [h.heap_size, h.numSlots]; exact hf.heap_size

theorem stop (h : f.SamePlace f') : f'.stop = f.stop := by
  simp only [Frame.stop, h.base, h.numSlots, h.mark]

end SamePlace

variable {f : Frame} {a : Arena} {s : Nat} {v : Value}

@[simp] theorem ceiling_put : (f.put a s v).2.ceiling = a.ceiling := by
  rcases put_cases f a s v with ⟨_, _, h⟩ | ⟨_, _, _, h⟩ | ⟨_, _, h⟩ <;> rw [h]
  unfold Arena.putWord Arena.putWord?
  split <;> simp only [Option.getD_some, Option.getD_none]

theorem samePlace_put : f.SamePlace (f.put a s v).1 := by
  rcases put_cases f a s v with ⟨_, _, h⟩ | ⟨_, _, _, h⟩ | ⟨_, _, h⟩ <;> rw [h] <;>
    exact ⟨rfl, rfl, rfl, by simp [numSlots], rfl, rfl, rfl, by simp, by simp, by simp⟩

theorem putInt_eq_put (n : Int64) : f.putInt a s n = f.put a s (.int n) := rfl

theorem samePlace_unset : f.SamePlace (f.unset s) :=
  ⟨rfl, rfl, rfl, by simp [unset, numSlots], rfl, rfl, rfl, by simp [unset], rfl, rfl⟩

theorem samePlace_extra (e : Bindings) : f.SamePlace { f with extra := e } :=
  ⟨rfl, rfl, rfl, rfl, rfl, rfl, rfl, rfl, rfl, rfl⟩

/-- The word `o` lies outside the frame's slots. -/
def Clear (f : Frame) (o : Nat) : Prop := ∀ b, f.base = some b → o + 8 ≤ b ∨ b + 8 * f.numSlots ≤ o

theorem SamePlace.clear {f' : Frame} (h : f.SamePlace f') {o : Nat} : f'.Clear o ↔ f.Clear o := by
  simp only [Clear, h.base, h.numSlots]

end Frame

/-! ## Environments whose frames stay in place -/

/-- Two layers that are both scopes, or two frames related by `R`. -/
def Layer.Rel (R : Frame → Frame → Prop) : Layer → Layer → Prop
  | .scope _, .scope _ => True
  | .frame f, .frame f' => R f f'
  | _, _ => False

namespace Layer

variable {R : Frame → Frame → Prop}

theorem Rel.refl (hR : ∀ f, R f f) : ∀ l : Layer, l.Rel R l
  | .scope _ => trivial
  | .frame f => hR f

theorem Rel.comp {R₁ R₂ : Frame → Frame → Prop} (hR : ∀ f f' f'', R₁ f f' → R₂ f' f'' → R f f'') :
    ∀ {l l' l'' : Layer}, l.Rel R₁ l' → l'.Rel R₂ l'' → l.Rel R l'' := by
  -- a scope and a frame are never related, so the mixed triples die at `simp`
  intro l l' l'' h h'
  cases l <;> cases l' <;> cases l'' <;> simp only [Rel] at h h' ⊢
  exact hR _ _ _ h h'

end Layer

/-- Relations between environments, frame by frame, compose. -/
theorem Env.forall₂_comp {R₁ R₂ R : Frame → Frame → Prop}
    (hR : ∀ f f' f'', R₁ f f' → R₂ f' f'' → R f f'') {E E' E'' : Env}
    (h : List.Forall₂ (Layer.Rel R₁) E E') (h' : List.Forall₂ (Layer.Rel R₂) E' E'') :
    List.Forall₂ (Layer.Rel R) E E'' := by
  induction h generalizing E'' with
  | nil => cases h'; exact .nil
  | cons hl _ ih =>
    cases h' with
    | cons hl' h'' => exact .cons (Layer.Rel.comp hR hl hl') (ih h'')

namespace Env

/-- Two environments layer by layer in the same place. -/
def SamePlaces (E E' : Env) : Prop := List.Forall₂ (Layer.Rel Frame.SamePlace) E E'

theorem SamePlaces.refl (E : Env) : E.SamePlaces E :=
  List.forall₂_same.mpr fun l _ => Layer.Rel.refl Frame.SamePlace.refl l

theorem SamePlaces.trans {E E' E'' : Env} (h : E.SamePlaces E') (h' : E'.SamePlaces E'') :
    E.SamePlaces E'' :=
  forall₂_comp (fun _ _ _ h h' => h.trans h') h h'

/-- The frames of an environment are sound. -/
def Sound (E : Env) : Prop := ∀ f, Layer.frame f ∈ E → f.Sound

/-- The word `o` lies outside the slots of every frame of the environment. -/
def Clear (E : Env) (o : Nat) : Prop := ∀ f, Layer.frame f ∈ E → f.Clear o

theorem sound_cons_frame {f : Frame} {rest : Env} (h : Sound (.frame f :: rest)) :
    f.Sound ∧ rest.Sound :=
  ⟨h f List.mem_cons_self, fun g hg => h g (List.mem_cons_of_mem _ hg)⟩

theorem clear_cons_frame {f : Frame} {rest : Env} {o : Nat} (h : Clear (.frame f :: rest) o) :
    f.Clear o ∧ rest.Clear o :=
  ⟨h f List.mem_cons_self, fun g hg => h g (List.mem_cons_of_mem _ hg)⟩

theorem SamePlaces.sound {E E' : Env} (h : E.SamePlaces E') (hE : E.Sound) : E'.Sound := by
  induction h with
  | nil => exact fun _ hf => nomatch hf
  | @cons l l' E E' hl _ ih =>
    intro f hf
    rcases List.mem_cons.mp hf with hf | hf
    · subst hf
      cases l with
      | scope => exact absurd hl id
      | frame g => exact Frame.SamePlace.sound hl (hE g List.mem_cons_self)
    · exact ih (fun g hg => hE g (List.mem_cons_of_mem _ hg)) f hf

theorem SamePlaces.clear {E E' : Env} (h : E.SamePlaces E') {o : Nat} (hE : E.Clear o) :
    E'.Clear o := by
  induction h with
  | nil => exact fun _ hf => nomatch hf
  | @cons l l' E E' hl _ ih =>
    intro f hf
    rcases List.mem_cons.mp hf with hf | hf
    · subst hf
      cases l with
      | scope => exact absurd hl id
      | frame g => exact (Frame.SamePlace.clear hl).mpr (hE g List.mem_cons_self)
    · exact ih (fun g hg => hE g (List.mem_cons_of_mem _ hg)) f hf

/-- Frames in the same places are stacked alike. -/
theorem Stacked.of_samePlaces {E E' : Env} {t : Nat} (h : E.SamePlaces E') (hE : E.Stacked t) :
    E'.Stacked t := by
  induction h generalizing t with
  | nil => trivial
  | @cons l l' E E' hl _ ih =>
    cases l with
    | scope =>
      cases l' with
      | scope => exact ih hE
      | frame => exact absurd hl id
    | frame f =>
      cases l' with
      | scope => exact absurd hl id
      | frame f' =>
        obtain ⟨hf, hsome, hnone⟩ := stacked_frame.mp hE
        refine stacked_frame.mpr ⟨Frame.SamePlace.sound hl hf, fun b hb => ?_, fun hb => ?_⟩
        · have hb' : f.base = some b := by rw [← Frame.SamePlace.base hl]; exact hb
          obtain ⟨hle, hrest⟩ := hsome b hb'
          exact ⟨by rw [Frame.SamePlace.numSlots hl]; exact hle, ih hrest⟩
        · have hb' : f.base = none := by rw [← Frame.SamePlace.base hl]; exact hb
          exact ih (hnone hb')

variable {a a' : Arena} {n : String} {v : Value}

/-- What an assignment changes: each layer stays in place, and no arena
word outside the environment's frames changes, nor the buffer's size or
top. -/
theorem assign_spec {E E' : Env} (hE : E.Sound) (h : assign a E n v = some (E', a')) :
    E.SamePlaces E' ∧ a'.size = a.size ∧ a'.top = a.top ∧ a'.ceiling = a.ceiling ∧
      ∀ o, E.Clear o → a'.word o = a.word o := by
  induction E generalizing E' a' with
  | nil => simp [assign] at h
  | cons layer rest ih =>
    cases layer with
    | scope b =>
      rw [assign_scope] at h
      split at h
      · cases h
        exact ⟨.cons trivial (SamePlaces.refl rest), rfl, rfl, rfl, fun _ _ => rfl⟩
      · obtain ⟨⟨rest', a₁⟩, hr, he⟩ := Option.map_eq_some_iff.mp h
        cases he
        obtain ⟨hsp, hsz, htop, hceil, hw⟩ := ih (fun g hg => hE g (List.mem_cons_of_mem _ hg)) hr
        exact ⟨.cons trivial hsp, hsz, htop, hceil,
          fun o ho => hw o fun g hg => ho g (List.mem_cons_of_mem _ hg)⟩
    | frame f =>
      obtain ⟨hf, hrest⟩ := sound_cons_frame hE
      by_cases hset : ∃ s, f.slotOf? n = some s ∧ f.slotSet s = true
      · -- the frame's own slot takes the value
        obtain ⟨s, hs, hss⟩ := hset
        rw [assign_frame_set rest hs hss] at h
        cases h
        refine ⟨.cons Frame.samePlace_put (SamePlaces.refl rest), Frame.size_put, Frame.top_put v,
          Frame.ceiling_put, fun o ho => Frame.word_put_of_outside (hf.slot_lt hs) (ho f List.mem_cons_self)⟩
      · have hoff : ∀ s, f.slotOf? n = some s → f.slotSet s = false := fun s hs => by
          simpa using fun h => hset ⟨s, hs, h⟩
        rw [assign_frame_unset rest hoff] at h
        split at h
        · cases h
          exact ⟨.cons (Frame.samePlace_extra _) (SamePlaces.refl rest), rfl, rfl, rfl,
            fun _ _ => rfl⟩
        · -- the layers outside take the value
          obtain ⟨⟨rest', a₁⟩, hr, he⟩ := Option.map_eq_some_iff.mp h
          cases he
          obtain ⟨hsp, hsz, htop, hceil, hw⟩ := ih hrest hr
          exact ⟨.cons (Frame.SamePlace.refl f) hsp, hsz, htop, hceil,
            fun o ho => hw o (clear_cons_frame ho).2⟩

/-- What a declaration changes: the same as an assignment, and only the
innermost layer. -/
theorem declare_spec {E : Env} (hne : E ≠ []) (hE : E.Sound) :
    E.SamePlaces (declare a E n v).1 ∧ (declare a E n v).2.size = a.size ∧
      (declare a E n v).2.top = a.top ∧ (declare a E n v).2.ceiling = a.ceiling ∧
      ∀ o, E.Clear o → (declare a E n v).2.word o = a.word o := by
  cases E with
  | nil => exact absurd rfl hne
  | cons layer rest =>
    cases layer with
    | scope b => exact ⟨.cons trivial (SamePlaces.refl rest), rfl, rfl, rfl, fun _ _ => rfl⟩
    | frame f =>
      have hf := (sound_cons_frame hE).1
      simp only [declare]
      split
      · rename_i s hs
        exact ⟨.cons Frame.samePlace_put (SamePlaces.refl rest), Frame.size_put, Frame.top_put v,
          Frame.ceiling_put, fun o ho => Frame.word_put_of_outside (hf.slot_lt hs) (ho f List.mem_cons_self)⟩
      · exact ⟨.cons (Frame.samePlace_extra _) (SamePlaces.refl rest), rfl, rfl, rfl,
          fun _ _ => rfl⟩

end Env

/-! ## Which slots a store rewrites -/

namespace Frame

variable {f f' : Frame} {a a' : Arena}

/-- A sound frame reads only the words of its own slots. -/
theorem get?_congr_slots (hf : f.Sound)
    (hw : ∀ b, f.base = some b → ∀ s < f.numSlots, a'.word (b + 8 * s) = a.word (b + 8 * s))
    (s : Nat) : f.get? a' s = f.get? a s := by
  by_cases hs : s < f.numSlots
  · exact get?_congr fun b hb => hw b hb s hs
  · -- past the last slot nothing is set
    have hunset : f.slotSet s = false := by
      simp [slotSet, Array.getD_eq_getD_getElem?, hf.isSet_size, hs]
    rw [get?_eq_none_iff.mpr hunset, get?_eq_none_iff.mpr hunset]

/-- `f'` over arena `a'` is `f` over `a` with at most the slots of the names
`ns` rewritten. -/
structure Rewrites (ns : String → Prop) (a a' : Arena) (f f' : Frame) : Prop where
  shape : f'.shape = f.shape
  reads : ∀ s, (∀ n, ns n → f.slotOf? n ≠ some s) → f'.get? a' s = f.get? a s

theorem Rewrites.comp {ns : String → Prop} {a₁ a₂ : Arena} {f₁ f₂ : Frame}
    (h : f.Rewrites ns a a₁ f₁) (h' : f₁.Rewrites ns a₁ a₂ f₂) : f.Rewrites ns a a₂ f₂ :=
  ⟨h'.shape.trans h.shape, fun s hs => by
    rw [h'.reads s fun n hn => by rw [slotOf?, h.shape]; exact hs n hn, h.reads s hs]⟩

theorem Rewrites.mono {ns ns' : String → Prop} (h : f.Rewrites ns a a' f') (hns : ∀ n, ns n → ns' n) :
    f.Rewrites ns' a a' f' :=
  ⟨h.shape, fun s hs => h.reads s fun n hn => hs n (hns n hn)⟩

end Frame

namespace Env

variable {a a' : Arena} {n : String} {v : Value} {ns : String → Prop}

/-- `E'` over `a'` is `E` over `a` with at most the slots of the names `ns`
rewritten, frame by frame. -/
def Rewrites (ns : String → Prop) (a a' : Arena) (E E' : Env) : Prop :=
  List.Forall₂ (Layer.Rel (Frame.Rewrites ns a a')) E E'

theorem Rewrites.comp {a₁ a₂ : Arena} {E E₁ E₂ : Env} (h : E.Rewrites ns a a₁ E₁)
    (h' : E₁.Rewrites ns a₁ a₂ E₂) : E.Rewrites ns a a₂ E₂ :=
  forall₂_comp (fun _ _ _ h h' => h.comp h') h h'

/-- Arenas that agree below `t` read alike through an environment stacked
below `t`. -/
theorem Stacked.rewrites_of_agree : ∀ {E : Env} {t : Nat}, E.Stacked t →
    (∀ o, o + 8 ≤ t → a'.word o = a.word o) → E.Rewrites ns a a' E
  | [], _, _, _ => .nil
  | .scope _ :: rest, _, hE, hw => .cons trivial (Stacked.rewrites_of_agree (E := rest) hE hw)
  | .frame f :: rest, t, hE, hw => by
    obtain ⟨t', ht', hrest, hbase⟩ := hE.frame_rest
    refine .cons ⟨rfl, fun s _ => Frame.get?_congr_slots (stacked_frame.mp hE).1 (fun b hb s hs => ?_) s⟩
      (Stacked.rewrites_of_agree hrest fun o ho => hw o (by omega))
    have := (hbase b hb).2
    exact hw _ (by omega)

/-- An assignment of `n` rewrites at most the slots of `n`. -/
theorem assign_rewrites {E E' : Env} {t : Nat} (hE : E.Stacked t) (ht : t ≤ a.size)
    (h : assign a E n v = some (E', a')) : E.Rewrites (· = n) a a' E' := by
  induction E generalizing E' t a' with
  | nil => simp [assign] at h
  | cons layer rest ih =>
    cases layer with
    | scope b =>
      rw [assign_scope] at h
      split at h
      · cases h
        exact .cons trivial (Stacked.rewrites_of_agree (E := rest) hE fun _ _ => rfl)
      · obtain ⟨⟨rest', a₁⟩, hr, he⟩ := Option.map_eq_some_iff.mp h
        cases he
        exact .cons trivial (ih hE ht hr)
    | frame f =>
      obtain ⟨t', ht', hrest, hbase⟩ := hE.frame_rest
      have hf := (stacked_frame.mp hE).1
      by_cases hset : ∃ s, f.slotOf? n = some s ∧ f.slotSet s = true
      · -- the frame's slot of `n` takes the value; the outer layers lie below it
        obtain ⟨s, hs, hss⟩ := hset
        rw [assign_frame_set rest hs hss] at h
        cases h
        refine .cons ⟨Frame.put_shape, fun s' hs' => Frame.get?_put_of_ne fun he => hs' n rfl (he ▸ hs)⟩
          (Stacked.rewrites_of_agree hrest fun o ho => Frame.word_put_of_outside (hf.slot_lt hs) ?_)
        intro b hb
        have := (hbase b hb).1
        omega
      · have hoff : ∀ s, f.slotOf? n = some s → f.slotSet s = false := fun s hs => by
          simpa using fun h => hset ⟨s, hs, h⟩
        rw [assign_frame_unset rest hoff] at h
        split at h
        · cases h
          exact .cons ⟨rfl, fun _ _ => rfl⟩ (Stacked.rewrites_of_agree hrest fun _ _ => rfl)
        · -- the outer layers take the value, below this frame's slots
          obtain ⟨⟨rest', a₁⟩, hr, he⟩ := Option.map_eq_some_iff.mp h
          cases he
          obtain ⟨-, -, hw⟩ := assign_footprint hrest (by omega) hr
          refine .cons ⟨rfl, fun s _ => Frame.get?_congr fun b hb => hw _ ?_⟩ (ih hrest (by omega) hr)
          have := (hbase b hb).1
          omega

end Env

namespace Manager

variable {a : Arena} {E : Env} {f : Frame}

/-- What writing a frame's copied names back changes: each layer of the
environment stays in place, and no arena word outside the environment's
frames changes, nor the buffer's size or top. -/
theorem writeBack_spec (hE : E.Sound) :
    E.SamePlaces (writeBack a E f).1 ∧ (writeBack a E f).2.1.size = a.size ∧
      (writeBack a E f).2.1.top = a.top ∧ (writeBack a E f).2.1.ceiling = a.ceiling ∧
      ∀ o, E.Clear o → (writeBack a E f).2.1.word o = a.word o := by
  unfold writeBack
  -- each write-back is an assignment through a copy of `E` in the same place
  apply Array.foldl_induction (motive := fun _ (r : Env × Arena × Option Error) =>
    E.SamePlaces r.1 ∧ r.2.1.size = a.size ∧ r.2.1.top = a.top ∧ r.2.1.ceiling = a.ceiling ∧
      ∀ o, E.Clear o → r.2.1.word o = a.word o)
  · exact ⟨Env.SamePlaces.refl E, rfl, rfl, rfl, fun _ _ => rfl⟩
  · rintro i ⟨env, a₁, err⟩ ⟨hsp, hsz, htop, hceil, hw⟩
    dsimp only
    split
    · exact ⟨hsp, hsz, htop, hceil, hw⟩
    · split
      · exact ⟨hsp, hsz, htop, hceil, hw⟩
      · split
        · rename_i env' a' hassign
          obtain ⟨hsp', hsz', htop', hceil', hw'⟩ := Env.assign_spec (hsp.sound hE) hassign
          exact ⟨hsp.trans hsp', hsz'.trans hsz, htop'.trans htop, hceil'.trans hceil,
            fun o ho => (hw' o (hsp.clear ho)).trans (hw o ho)⟩
        · exact ⟨hsp, hsz, htop, hceil, hw⟩

/-- Writing a frame's copied names back rewrites at most the slots of those
names. -/
theorem writeBack_rewrites {t : Nat} (hE : E.Stacked t) (ht : t ≤ a.size) :
    E.Rewrites (fun n => ∃ lv ∈ f.vars, lv.declared = false ∧ lv.name = n) a
      (writeBack a E f).2.1 (writeBack a E f).1 := by
  unfold writeBack
  -- each write-back is an assignment through an environment still stacked below `t`
  apply (Array.foldl_induction (motive := fun _ (r : Env × Arena × Option Error) =>
    r.1.Stacked t ∧ r.2.1.size = a.size ∧
      E.Rewrites (fun n => ∃ lv ∈ f.vars, lv.declared = false ∧ lv.name = n) a r.2.1 r.1) ?_ ?_).2.2
  · exact ⟨hE, rfl, Env.Stacked.rewrites_of_agree hE fun _ _ => rfl⟩
  · rintro i ⟨env, a₁, err⟩ ⟨hst, hsz, hrw⟩
    dsimp only at hst hsz hrw ⊢
    split
    · exact ⟨hst, hsz, hrw⟩
    · rename_i hcopied
      split
      · exact ⟨hst, hsz, hrw⟩
      · split
        · rename_i env' a' hassign
          obtain ⟨hst', hsz', -⟩ := Env.assign_footprint hst (by omega) hassign
          have hstep := Env.assign_rewrites hst (by omega) hassign
          refine ⟨hst', hsz'.trans hsz, hrw.comp ?_⟩
          exact List.Forall₂.imp (fun l l' hl => by
            cases l <;> cases l' <;> simp only [Layer.Rel] at hl ⊢
            exact hl.mono fun n hn =>
              ⟨_, Array.getElem_mem _, by simpa using hcopied, hn.symm⟩) hstep
        · exact ⟨hst, hsz, hrw⟩

/-- What copying names into a fresh frame changes: the frame stays in place,
and no arena word outside its slots changes, nor the buffer's size, top or
ceiling. -/
theorem copyIn_spec (hslots : ∀ lv ∈ f.vars, lv.slot < f.numSlots) :
    f.SamePlace (copyIn a E f).1 ∧ (copyIn a E f).2.size = a.size ∧
      (copyIn a E f).2.top = a.top ∧ (copyIn a E f).2.ceiling = a.ceiling ∧
      ∀ o, f.Clear o → (copyIn a E f).2.word o = a.word o := by
  unfold copyIn
  apply Array.foldl_induction (motive := fun _ (r : Frame × Arena) =>
    f.SamePlace r.1 ∧ r.2.size = a.size ∧ r.2.top = a.top ∧ r.2.ceiling = a.ceiling ∧
      ∀ o, f.Clear o → r.2.word o = a.word o)
  · exact ⟨Frame.SamePlace.refl f, rfl, rfl, rfl, fun _ _ => rfl⟩
  · rintro i ⟨g, a₁⟩ ⟨hsp, hsz, htop, hceil, hw⟩
    dsimp only
    split
    · exact ⟨hsp, hsz, htop, hceil, hw⟩
    · split
      · -- the copied value goes into one of the frame's own slots
        have hs : f.vars[i].slot < g.numSlots := by
          rw [hsp.numSlots]
          exact hslots _ (Array.getElem_mem _)
        refine ⟨hsp.trans Frame.samePlace_put, by rw [Frame.size_put, hsz],
          by rw [Frame.top_put, htop], by rw [Frame.ceiling_put, hceil], fun o ho => ?_⟩
        rw [Frame.word_put_of_outside hs ((hsp.clear).mpr ho), hw o ho]
      · exact ⟨hsp, hsz, htop, hceil, hw⟩

end Manager

/-! ## The lineage of a frame -/

namespace FrameTable

variable {t t' : FrameTable}

/-- The frames that the environment seen from `p` passes through, innermost
first, as `chain` follows parents. -/
def lineage (t : FrameTable) : Nat → Option Nat → List Nat
  | _, none => []
  | 0, some _ => []
  | f + 1, some k =>
    match t.frames[k]? with
    | some _ => k :: t.lineage f (t.parents[k]?.getD none)
    | none => []

/-- Two tables with the same parents whose frames stand in the same places. -/
structure SameFrames (t t' : FrameTable) : Prop where
  parents : t'.parents = t.parents
  size : t'.frames.size = t.frames.size
  frames : ∀ (k : Nat) (fr : Frame), t.frames[k]? = some fr →
    ∃ fr', t'.frames[k]? = some fr' ∧ fr.SamePlace fr'

theorem SameFrames.refl (t : FrameTable) : SameFrames t t :=
  ⟨rfl, rfl, fun _ fr h => ⟨fr, h, Frame.SamePlace.refl fr⟩⟩

theorem SameFrames.trans {t'' : FrameTable} (h : SameFrames t t') (h' : SameFrames t' t'') :
    SameFrames t t'' := by
  refine ⟨h'.parents.trans h.parents, h'.size.trans h.size, fun k fr hk => ?_⟩
  obtain ⟨fr', hk', hp⟩ := h.frames k fr hk
  obtain ⟨fr'', hk'', hp'⟩ := h'.frames k fr' hk'
  exact ⟨fr'', hk'', hp.trans hp'⟩

/-- A frame that exists in one table exists in the other. -/
theorem SameFrames.isSome (h : SameFrames t t') (k : Nat) :
    t'.frames[k]?.isSome = t.frames[k]?.isSome := by
  by_cases hk : k < t.frames.size <;> simp [hk, h.size]

theorem SameFrames.lineage (h : SameFrames t t') :
    ∀ fuel p, t'.lineage fuel p = t.lineage fuel p
  | _, none => by simp [FrameTable.lineage]
  | 0, some _ => by simp [FrameTable.lineage]
  | f + 1, some k => by
    have hk := h.isSome k
    simp only [FrameTable.lineage, h.parents, SameFrames.lineage h f]
    cases h₁ : t.frames[k]? <;> cases h₂ : t'.frames[k]? <;> simp_all

theorem SameFrames.chain (h : SameFrames t t') :
    ∀ fuel p, (t.chain fuel p).SamePlaces (t'.chain fuel p)
  | _, none => by simp [FrameTable.chain, Env.SamePlaces, Layer.Rel]
  | 0, some _ => by simp [FrameTable.chain, Env.SamePlaces, Layer.Rel]
  | f + 1, some k => by
    simp only [FrameTable.chain, h.parents]
    cases h₁ : t.frames[k]? with
    | none =>
      have : t'.frames[k]? = none := by simpa [h₁] using h.isSome k
      simp [this, Env.SamePlaces, Layer.Rel]
    | some fr =>
      obtain ⟨fr', h₂, hp⟩ := h.frames k fr h₁
      rw [h₂]
      exact .cons hp (SameFrames.chain h f _)

/-- Every frame of the environment seen from `p` is a frame of its lineage. -/
theorem mem_chain {fr : Frame} :
    ∀ {fuel p}, Layer.frame fr ∈ t.chain fuel p → ∃ k ∈ t.lineage fuel p, t.frames[k]? = some fr
  | _, none, h => by simp [chain] at h
  | 0, some _, h => by simp [chain] at h
  | f + 1, some k, h => by
    simp only [chain] at h
    cases hk : t.frames[k]? with
    | none => simp [hk] at h
    | some g =>
      rw [hk] at h
      simp only [lineage, hk]
      rcases List.mem_cons.mp h with h | h
      · cases h
        exact ⟨k, List.mem_cons_self, hk⟩
      · obtain ⟨j, hj, hjf⟩ := mem_chain h
        exact ⟨j, List.mem_cons_of_mem _ hj, hjf⟩

theorem chain_ne_nil : ∀ fuel p, t.chain fuel p ≠ []
  | _, none => by simp [chain]
  | 0, some _ => by simp [chain]
  | f + 1, some k => by
    simp only [chain]
    split <;> simp

theorem SameFrames.symm (h : SameFrames t t') : SameFrames t' t := by
  refine ⟨h.parents.symm, h.size.symm, fun k fr hk => ?_⟩
  have hs : t.frames[k]?.isSome := by rw [← h.isSome k, hk]; rfl
  obtain ⟨fr₀, h₀⟩ := Option.isSome_iff_exists.mp hs
  obtain ⟨fr', h', hp⟩ := h.frames k fr₀ h₀
  rw [hk] at h'
  cases h'
  exact ⟨fr₀, h₀, hp.symm⟩

/-- Putting a frame in the place of a record of it. -/
theorem sameFrames_set {k : Nat} {fr fr' : Frame} (hk : t.frames[k]? = some fr) (hp : fr.SamePlace fr') :
    SameFrames t { t with frames := t.frames.set! k fr' } := by
  refine ⟨rfl, by simp, fun j g hj => ?_⟩
  by_cases hjk : j = k
  · subst hjk
    rw [hk] at hj
    cases hj
    have hlt : j < t.frames.size := by
      by_contra hn
      simp [Array.getElem?_eq_none (Nat.le_of_not_lt hn)] at hk
    exact ⟨fr', by simp [Array.set!_eq_setIfInBounds, hlt], hp⟩
  · exact ⟨g, by simp [Array.set!_eq_setIfInBounds, Ne.symm hjk, hj],
      Frame.SamePlace.refl g⟩

/-- An environment in the place of a lone scope is a lone scope. -/
theorem samePlaces_scope {g : Bindings} {E : Env} (h : Env.SamePlaces [.scope g] E) :
    ∃ b, E = [.scope b] := by
  cases h with
  | cons hl hrest =>
    cases hrest
    rename_i l
    cases l with
    | scope b => exact ⟨b, rfl⟩
    | frame => exact absurd hl id

/-- Storing back an environment in the place of the one seen from `p`
leaves the frames outside the lineage of `p` as they were, puts the others
in their places, and changes nothing else but the global scope. -/
theorem absorb_spec : ∀ {t : FrameTable} {fuel : Nat} {p : Option Nat} {E : Env},
    (t.chain fuel p).SamePlaces E →
    SameFrames t (t.absorb fuel p E) ∧
      (∀ j ∉ t.lineage fuel p, (t.absorb fuel p E).frames[j]? = t.frames[j]?) ∧
      (t.absorb fuel p E).manager = t.manager ∧ (t.absorb fuel p E).opened = t.opened
  | t, _, none, E, h => by
    simp only [chain] at h
    obtain ⟨b, rfl⟩ := samePlaces_scope h
    rw [absorb]
    exact ⟨⟨rfl, rfl, fun _ fr h => ⟨fr, h, Frame.SamePlace.refl fr⟩⟩, fun _ _ => rfl, rfl, rfl⟩
  | t, 0, some k, E, h => by
    simp only [chain] at h
    obtain ⟨b, rfl⟩ := samePlaces_scope h
    rw [absorb]
    exact ⟨⟨rfl, rfl, fun _ fr h => ⟨fr, h, Frame.SamePlace.refl fr⟩⟩, fun _ _ => rfl, rfl, rfl⟩
  | t, f + 1, some k, E, h => by
    simp only [chain] at h
    cases hk : t.frames[k]? with
    | none =>
      rw [hk] at h
      obtain ⟨b, rfl⟩ := samePlaces_scope h
      rw [absorb]
      exact ⟨⟨rfl, rfl, fun _ fr h => ⟨fr, h, Frame.SamePlace.refl fr⟩⟩, fun _ _ => rfl, rfl, rfl⟩
    | some fr =>
      rw [hk] at h
      cases h with
      | @cons _ l _ rest hl hrest =>
      cases l with
      | scope => exact absurd hl id
      | frame fr' =>
      -- the frame takes its new record, then the parents take theirs
      have h₁ := sameFrames_set hk hl
      have hrest₁ := (h₁.symm.chain f (t.parents[k]?.getD none)).trans hrest
      obtain ⟨hsame, hout, hman, hop⟩ := absorb_spec hrest₁
      refine ⟨h₁.trans hsame, fun j hj => ?_, hman, hop⟩
      simp only [lineage, hk, List.mem_cons, not_or] at hj
      rw [absorb, hout j (by rw [h₁.lineage]; exact hj.2)]
      simp [Array.set!_eq_setIfInBounds, Ne.symm hj.1]

/-- A manager of its own changes no frame. -/
theorem sameFrames_manager (m : Manager) : SameFrames t { t with manager := m } :=
  ⟨rfl, rfl, fun _ fr h => ⟨fr, h, Frame.SamePlace.refl fr⟩⟩

/-- What running an environment operation from `p` and storing its result
back changes: frames outside the lineage of `p` stay as they were, the
others stay in place, and the manager takes the operation's arena. -/
theorem within_spec {α : Type} {p : Option Nat} (act : Env → Arena → α × Env × Arena)
    (h : (t.env p).SamePlaces (act (t.env p) t.manager.arena).2.1) :
    SameFrames t (t.within p act).2 ∧
      (∀ j ∉ t.lineage (t.frames.size + 1) p, (t.within p act).2.frames[j]? = t.frames[j]?) ∧
      (t.within p act).2.manager = { t.manager with arena := (act (t.env p) t.manager.arena).2.2 } ∧
      (t.within p act).2.opened = t.opened := by
  unfold within
  generalize hr : act (t.env p) t.manager.arena = r at h
  obtain ⟨x, E, a⟩ := r
  -- the manager takes the arena first; the frames and parents are those of `t`
  have h₁ := sameFrames_manager (t := t) { t.manager with arena := a }
  obtain ⟨hsame, hout, hman, hop⟩ :=
    absorb_spec ((h₁.symm.chain (t.frames.size + 1) p).trans h)
  refine ⟨h₁.trans hsame, fun j hj => ?_, hman, hop⟩
  rw [hout j (by rw [h₁.lineage]; exact hj)]

/-- The environment seen from `p` does not look at the manager. -/
theorem chain_with_manager (m : Manager) :
    ∀ fuel p, ({ t with manager := m } : FrameTable).chain fuel p = t.chain fuel p
  | _, none => by simp [chain]
  | 0, some _ => by simp [chain]
  | f + 1, some k => by
    simp only [chain]
    cases t.frames[k]? with
    | none => rfl
    | some fr => rw [chain_with_manager m f]

/-- A frame outside the lineage of `p` is not seen from `p`. -/
theorem chain_set_of_not_mem {k : Nat} {x : Frame} :
    ∀ {fuel p}, k ∉ t.lineage fuel p →
      ({ t with frames := t.frames.set! k x } : FrameTable).chain fuel p = t.chain fuel p
  | _, none, _ => by simp [chain]
  | 0, some _, _ => by simp [chain]
  | f + 1, some j, h => by
    simp only [chain]
    cases hj : t.frames[j]? with
    | none =>
      have : (t.frames.set! k x)[j]? = none := by
        simp only [Array.set!_eq_setIfInBounds, Array.getElem?_setIfInBounds, hj]
        split <;> simp_all
      rw [this]
    | some g =>
      simp only [lineage, hj, List.mem_cons, not_or] at h
      have : (t.frames.set! k x)[j]? = some g := by
        rw [Array.set!_eq_setIfInBounds, Array.getElem?_setIfInBounds_ne h.1, hj]
      rw [this, chain_set_of_not_mem h.2]

/-- Storing back an environment related frame by frame to the one seen from
`p` relates each frame of the lineage of `p` to its new record, when the
lineage passes no frame twice. -/
theorem absorb_rel {R : Frame → Frame → Prop} :
    ∀ {t : FrameTable} {fuel : Nat} {p : Option Nat} {E : Env},
    (t.lineage fuel p).Nodup → (t.chain fuel p).SamePlaces E →
    List.Forall₂ (Layer.Rel R) (t.chain fuel p) E →
    ∀ j ∈ t.lineage fuel p, ∀ fr, t.frames[j]? = some fr →
      ∃ fr', (t.absorb fuel p E).frames[j]? = some fr' ∧ R fr fr'
  | _, _, none, _, _, _, _, j, hj, _, _ => by simp [lineage] at hj
  | _, 0, some _, _, _, _, _, j, hj, _, _ => by simp [lineage] at hj
  | t, f + 1, some k, E, hnd, h, hR, j, hj, fr, hfr => by
    simp only [chain] at h hR
    cases hk : t.frames[k]? with
    | none => simp [lineage, hk] at hj
    | some g =>
      simp only [lineage, hk] at hnd hj
      rw [hk] at h hR
      cases h with
      | @cons _ l _ rest hl hrest =>
      cases l with
      | scope => exact absurd hl id
      | frame g' =>
      cases hR with
      | cons hRl hRrest =>
      -- the frame takes its new record, which its parents' lineage never sees again
      have h₁ := sameFrames_set hk hl
      obtain ⟨hknot, hnd'⟩ := List.nodup_cons.mp hnd
      have hlin := h₁.lineage f (t.parents[k]?.getD none)
      have hchain := chain_set_of_not_mem (x := g') hknot
      rw [absorb]
      rcases List.mem_cons.mp hj with rfl | hj
      · rw [hk] at hfr
        cases hfr
        rw [(absorb_spec ((h₁.symm.chain f _).trans hrest)).2.1 j (by rw [hlin]; exact hknot)]
        have hlt : j < t.frames.size := by
          by_contra hn
          simp [Array.getElem?_eq_none (Nat.le_of_not_lt hn)] at hk
        exact ⟨g', by simp [Array.set!_eq_setIfInBounds, hlt], hRl⟩
      · have hjk : j ≠ k := fun e => hknot (e ▸ hj)
        refine absorb_rel (by rw [hlin]; exact hnd') (by rw [hchain]; exact hrest)
          (by rw [hchain]; exact hRrest) j (by rw [hlin]; exact hj) fr ?_
        rw [Array.set!_eq_setIfInBounds, Array.getElem?_setIfInBounds_ne (Ne.symm hjk), hfr]

/-- Running an environment operation from `p` that relates the environment
frame by frame to its result relates each frame of the lineage of `p` to its
new record. -/
theorem within_rel {R : Frame → Frame → Prop} {α : Type} {p : Option Nat}
    (act : Env → Arena → α × Env × Arena) (hnd : (t.lineage (t.frames.size + 1) p).Nodup)
    (h : (t.env p).SamePlaces (act (t.env p) t.manager.arena).2.1)
    (hR : List.Forall₂ (Layer.Rel R) (t.env p) (act (t.env p) t.manager.arena).2.1) :
    ∀ j ∈ t.lineage (t.frames.size + 1) p, ∀ fr, t.frames[j]? = some fr →
      ∃ fr', (t.within p act).2.frames[j]? = some fr' ∧ R fr fr' := by
  unfold within
  generalize act (t.env p) t.manager.arena = r at h hR
  obtain ⟨x, E, a⟩ := r
  have hlin := (sameFrames_manager (t := t) { t.manager with arena := a }).lineage (t.frames.size + 1) p
  have hchain := chain_with_manager (t := t) { t.manager with arena := a } (t.frames.size + 1) p
  intro j hj fr hfr
  exact absorb_rel (by rw [hlin]; exact hnd) (by rw [hchain]; exact h) (by rw [hchain]; exact hR)
    j (by rw [hlin]; exact hj) fr hfr

end FrameTable

end HotLoop
