import HotLoop.Proofs.Memory.Store
import HotLoop.Proofs.Shape.Slots
import HotLoop.Memory.Manager
/-!
# HotLoop.Proofs.Memory.FrameScope

A loop's frame stands for a child scope of its enclosing environment.

Run a loop once in a frame over an environment `EA` and once in a fresh
scope over a copy `EB` of it. The frame holds in its slots what the scope
binds for the names the loop declares; for the names the loop writes without
declaring, a set slot holds the value the scope's run has already written
through to `EB`, while `EA` still has the value from before. Everywhere else
`EA` and `EB` agree. `FrameSim` says exactly this, and it survives every
lookup, assignment and declaration the loop makes (`lookup_sim`,
`assign_sim`, `declare_sim`). Opening the frame establishes it over a
copy of the environment (`enter_sim`), and closing the frame writes the
copied names back so that the two environments agree everywhere
(`exit_sim`).
-/

namespace HotLoop

/-! ## Slot names -/

namespace Shape

/-- The name that owns slot `s`. -/
def slotName (sh : Shape) (s : Nat) : String := sh.names[sh.promoted[s]!]!

/-- Whether the loop declares the name that owns slot `s`; such a slot is
never copied in or written back. -/
def slotDeclared (sh : Shape) (s : Nat) : Bool := sh.declared[sh.promoted[s]!]!

end Shape

namespace Loop

variable {l : Loop}

theorem slotOf?_slotName {s : Nat} (hs : s < l.shape.numSlots) :
    l.shape.slotOf? (l.shape.slotName s) = some s :=
  slotOf?_promoted hs

theorem slotName_of_slotOf? {n : String} {s : Nat} (h : l.shape.slotOf? n = some s) :
    l.shape.slotName s = n :=
  slotOf?_inj (slotOf?_slotName (slotOf?_lt h)) h

theorem slotName_inj {s s' : Nat} (hs : s < l.shape.numSlots) (hs' : s' < l.shape.numSlots)
    (h : l.shape.slotName s = l.shape.slotName s') : s = s' := by
  have h₁ := slotOf?_slotName hs
  rw [h, slotOf?_slotName hs'] at h₁
  exact (Option.some.inj h₁).symm

end Loop

/-! ## The relation -/

variable (l : Loop)

/-- The frame `fr` of loop `l` over the environment `EA` in arena `aA` stands
for the scope `b` over the environment `EB` in arena `aB`. -/
structure FrameSim (fr : Frame) (EA : Env) (aA : Arena) (b : Bindings) (EB : Env) (aB : Arena) :
    Prop where
  shape : fr.shape = l.shape
  numSlots : fr.numSlots = l.shape.numSlots
  extra : fr.extra = []
  vars : fr.vars.toList.map (fun lv => (lv.name, lv.slot, lv.declared)) =
    (List.range l.shape.numSlots).map fun s => (l.shape.slotName s, s, l.shape.slotDeclared s)
  stackedA : Env.Stacked (.frame fr :: EA) aA.size
  stackedB : EB.Stacked aB.size
  /-- The slot of a declared name holds what the scope binds. -/
  declared : ∀ s < l.shape.numSlots, l.shape.slotDeclared s = true →
    fr.get? aA s = b.get? (l.shape.slotName s)
  /-- A set slot of a copied name holds what the scope's run wrote through to
  its environment, and the frame's environment binds the name too. -/
  copied : ∀ s < l.shape.numSlots, l.shape.slotDeclared s = false → fr.slotSet s = true →
    fr.get? aA s = EB.lookup aB (l.shape.slotName s) ∧ EA.lookup aA (l.shape.slotName s) ≠ none
  /-- The scope binds declared names only. -/
  scope : ∀ n, b.get? n ≠ none → ∃ s, l.shape.slotOf? n = some s ∧ l.shape.slotDeclared s = true
  /-- Away from the set slots of copied names, the environments agree. -/
  outer : ∀ n, (∀ s, l.shape.slotOf? n = some s → l.shape.slotDeclared s = false →
    fr.slotSet s = false) → EA.lookup aA n = EB.lookup aB n

variable {l}

/-- A name with a slot marked declared: the loop binds it in its own layer. -/
def Loop.DeclOK (l : Loop) (n : String) : Prop :=
  ∃ s, l.shape.slotOf? n = some s ∧ l.shape.slotDeclared s = true

section

variable {fr : Frame} {EA EB : Env} {aA aB : Arena} {b : Bindings}

theorem FrameSim.sound (h : FrameSim l fr EA aA b EB aB) : fr.Sound :=
  (Env.stacked_frame.mp h.stackedA).1

theorem FrameSim.slotOf? (h : FrameSim l fr EA aA b EB aB) (n : String) :
    fr.slotOf? n = l.shape.slotOf? n := by
  simp only [Frame.slotOf?, h.shape]

/-- A copied name is never bound in the scope. -/
theorem FrameSim.scope_copied (h : FrameSim l fr EA aA b EB aB) {s : Nat}
    (hs : s < l.shape.numSlots) (hd : l.shape.slotDeclared s = false) :
    b.get? (l.shape.slotName s) = none := by
  by_contra hb
  obtain ⟨s', hs', hd'⟩ := h.scope _ hb
  rw [Loop.slotOf?_slotName hs] at hs'
  cases hs'
  simp [hd] at hd'

/-- The frame's slots fit in its arena. -/
theorem FrameSim.fits (h : FrameSim l fr EA aA b EB aB) :
    ∀ o, fr.base = some o → o + 8 * fr.numSlots ≤ aA.size := fun o ho =>
  ((Env.stacked_frame.mp h.stackedA).2.1 o ho).1

/-- The frame's environment lies below its slots, so writing a slot leaves its
lookups. -/
theorem FrameSim.lookup_put (h : FrameSim l fr EA aA b EB aB) {s : Nat} (hs : s < fr.numSlots)
    (v : Value) (n : String) : EA.lookup (fr.put aA s v).2 n = EA.lookup aA n := by
  obtain ⟨t', ht', hrest, hbase⟩ := h.stackedA.frame_rest
  apply Env.lookup_congr hrest
  intro o ho
  apply Frame.word_put_of_outside hs
  intro b hb
  have := (hbase b hb).1
  omega

/-- The environment outside the frame is stacked below the frame's slots. -/
theorem FrameSim.outer_stacked (h : FrameSim l fr EA aA b EB aB) :
    ∃ t, t ≤ aA.size ∧ EA.Stacked t ∧ ∀ o, fr.base = some o → t ≤ o := by
  obtain ⟨t, ht, hrest, hbase⟩ := h.stackedA.frame_rest
  exact ⟨t, ht, hrest, fun o ho => (hbase o ho).1.le⟩

/-- An assignment through the frame's environment leaves the frame's slots. -/
theorem FrameSim.get?_assign (h : FrameSim l fr EA aA b EB aB) {n : String} {v : Value}
    {EA' : Env} {aA' : Arena} (hA : EA.assign aA n v = some (EA', aA')) (s : Nat) :
    fr.get? aA' s = fr.get? aA s := by
  obtain ⟨t, ht, hrest, hbase⟩ := h.outer_stacked
  obtain ⟨-, -, hw⟩ := Env.assign_footprint hrest ht hA
  exact Frame.get?_congr fun o ho => hw _ (by have := hbase o ho; omega)

theorem Env.stacked_put {f : Frame} {rest : Env} {t : Nat} (h : Stacked (.frame f :: rest) t)
    (a : Arena) (s : Nat) (v : Value) : Stacked (.frame (f.put a s v).1 :: rest) t := by
  obtain ⟨hf, hsome, hnone⟩ := stacked_frame.mp h
  refine stacked_frame.mpr ⟨Frame.sound_put hf, fun o ho => ?_, fun ho => ?_⟩
  · rw [Frame.put_base] at ho
    rw [Frame.put_numSlots]
    exact hsome o ho
  · rw [Frame.put_base] at ho
    exact hnone ho

/-- Writing a slot keeps the frame's layout, and the frame stays stacked in
its arena. -/
theorem FrameSim.put_layout (h : FrameSim l fr EA aA b EB aB) (s : Nat) (v : Value) :
    (fr.put aA s v).1.shape = l.shape ∧ (fr.put aA s v).1.numSlots = l.shape.numSlots ∧
      (fr.put aA s v).1.extra = [] ∧
      (fr.put aA s v).1.vars.toList.map (fun lv => (lv.name, lv.slot, lv.declared)) =
        (List.range l.shape.numSlots).map
          (fun s => (l.shape.slotName s, s, l.shape.slotDeclared s)) ∧
      Env.Stacked (.frame (fr.put aA s v).1 :: EA) (fr.put aA s v).2.size := by
  refine ⟨by rw [Frame.put_shape, h.shape], by rw [Frame.put_numSlots, h.numSlots],
    by rw [Frame.put_extra, h.extra], by rw [Frame.put_vars, h.vars], ?_⟩
  rw [Frame.size_put]
  exact Env.stacked_put h.stackedA aA s v

/-! ## Lookups -/

/-- The frame and the scope answer every lookup alike. -/
theorem lookup_sim (h : FrameSim l fr EA aA b EB aB) (n : String) :
    Env.lookup aA (.frame fr :: EA) n = Env.lookup aB (.scope b :: EB) n := by
  have hf := h.sound
  rw [Env.lookup_scope]
  cases hsl : l.shape.slotOf? n with
  | none =>
    -- neither a slot nor a scope binding: both go on to the outer layers
    have hb : b.get? n = none := by
      by_contra hb
      obtain ⟨s, hs, -⟩ := h.scope n hb
      simp [hsl] at hs
    rw [Env.lookup_frame_unset EA fun s hs => by simp [h.slotOf?, hsl] at hs, h.extra, hb]
    exact h.outer n fun s hs => by simp [hsl] at hs
  | some s =>
    have hlt := Loop.slotOf?_lt hsl
    have hname := Loop.slotName_of_slotOf? hsl
    have hfs : fr.slotOf? n = some s := by rw [h.slotOf?, hsl]
    cases hd : l.shape.slotDeclared s with
    | true =>
      have hget := h.declared s hlt hd
      rw [hname] at hget
      cases hb : b.get? n with
      | some x =>
        rw [hb] at hget
        exact Env.lookup_frame_set EA hfs hget
      | none =>
        rw [hb] at hget
        have hunset := Frame.get?_eq_none_iff.mp hget
        rw [Env.lookup_frame_unset EA fun s' hs' => by
          rw [hfs] at hs'; cases hs'; exact hunset, h.extra]
        exact h.outer n fun s' hs' hd' => by rw [hsl] at hs'; cases hs'; simp [hd] at hd'
    | false =>
      have hb : b.get? n = none := hname ▸ h.scope_copied hlt hd
      rw [hb]
      cases hset : fr.slotSet s with
      | true =>
        obtain ⟨hget, -⟩ := h.copied s hlt hd hset
        rw [hname] at hget
        obtain ⟨x, hx⟩ : ∃ x, fr.get? aA s = some x := Option.ne_none_iff_exists'.mp fun hn =>
          by simp [Frame.get?_eq_none_iff.mp hn] at hset
        rw [Env.lookup_frame_set EA hfs hx, ← hx, hget]
      | false =>
        rw [Env.lookup_frame_unset EA fun s' hs' => by rw [hfs] at hs'; cases hs'; exact hset, h.extra]
        exact h.outer n fun s' hs' _ => by rw [hsl] at hs'; cases hs'; exact hset

/-! ## Writes -/

/-- Writing the slot of a declared name, as the scope binds it, keeps the
frame standing for the scope. -/
theorem put_declared_sim (h : FrameSim l fr EA aA b EB aB) {n : String} {s : Nat}
    (hsl : l.shape.slotOf? n = some s) (hd : l.shape.slotDeclared s = true) (v : Value) :
    FrameSim l (fr.put aA s v).1 EA (fr.put aA s v).2 (b.put n v) EB aB := by
  have hf := h.sound
  have hlt := Loop.slotOf?_lt hsl
  have hlt' : s < fr.numSlots := h.numSlots ▸ hlt
  have hname := Loop.slotName_of_slotOf? hsl
  have hiset : s < fr.isSet.size := hf.isSet_size ▸ hlt'
  obtain ⟨hsh, hns, hex, hvs, hst⟩ := h.put_layout s v
  refine ⟨hsh, hns, hex, hvs, hst, h.stackedB, ?_, ?_, ?_, ?_⟩
  · intro s' hs' hd'
    by_cases he : s' = s
    · subst he
      rw [Frame.get?_put_self hlt' hf h.fits, hname, Bindings.get?_put_self]
    · rw [Frame.get?_put_of_ne he, h.declared s' hs' hd',
        Bindings.get?_put_of_ne fun hn => he (Loop.slotName_inj hs' hlt (hn.trans hname.symm))]
  · intro s' hs' hd' hset'
    have he : s' ≠ s := fun he => by simp [he, hd] at hd'
    rw [Frame.slotSet_put hiset, if_neg (Ne.symm he)] at hset'
    rw [Frame.get?_put_of_ne he, h.lookup_put hlt']
    exact h.copied s' hs' hd' hset'
  · intro m hm
    by_cases he : m = n
    · exact ⟨s, he ▸ hsl, hd⟩
    · rw [Bindings.get?_put_of_ne he] at hm
      exact h.scope m hm
  · intro m hcond
    rw [h.lookup_put hlt']
    apply h.outer m
    intro s' hs' hd'
    have he : s' ≠ s := fun he => by simp [he, hd] at hd'
    have := hcond s' hs' hd'
    rwa [Frame.slotSet_put hiset, if_neg (Ne.symm he)] at this

/-- Writing the set slot of a copied name, as the scope's run writes the name
through to its environment, keeps the frame standing for the scope. -/
theorem put_copied_sim (h : FrameSim l fr EA aA b EB aB) {n : String} {s : Nat} {v : Value}
    (hsl : l.shape.slotOf? n = some s) (hd : l.shape.slotDeclared s = false)
    (hset : fr.slotSet s = true) {EB' : Env} {aB' : Arena} (hB : EB.assign aB n v = some (EB', aB')) :
    FrameSim l (fr.put aA s v).1 EA (fr.put aA s v).2 b EB' aB' := by
  have hf := h.sound
  have hlt := Loop.slotOf?_lt hsl
  have hlt' : s < fr.numSlots := h.numSlots ▸ hlt
  have hname := Loop.slotName_of_slotOf? hsl
  have hiset : s < fr.isSet.size := hf.isSet_size ▸ hlt'
  obtain ⟨hstB, hszB, -⟩ := Env.assign_footprint h.stackedB le_rfl hB
  -- the slot was set already, so no slot changes from unset to set
  have hsame : ∀ s', (fr.put aA s v).1.slotSet s' = fr.slotSet s' := fun s' => by
    rw [Frame.slotSet_put hiset]
    split
    · next he => rw [← he, hset]
    · rfl
  obtain ⟨hsh, hns, hex, hvs, hst⟩ := h.put_layout s v
  refine ⟨hsh, hns, hex, hvs, hst, hszB ▸ hstB, ?_, ?_, h.scope, ?_⟩
  · intro s' hs' hd'
    have he : s' ≠ s := fun he => by simp [he, hd] at hd'
    rw [Frame.get?_put_of_ne he]
    exact h.declared s' hs' hd'
  · intro s' hs' hd' hset'
    rw [hsame] at hset'
    rw [h.lookup_put hlt']
    by_cases he : s' = s
    · subst he
      rw [Frame.get?_put_self hlt' hf h.fits, hname,
        Env.lookup_assign_self h.stackedB le_rfl hB]
      exact ⟨rfl, hname ▸ (h.copied s' hs' hd' hset').2⟩
    · have hne : l.shape.slotName s' ≠ n := fun hn =>
        he (Loop.slotName_inj hs' hlt (hn.trans hname.symm))
      rw [Frame.get?_put_of_ne he, Env.lookup_assign_of_ne h.stackedB le_rfl hB hne]
      exact h.copied s' hs' hd' hset'
  · intro m hcond
    have hne : m ≠ n := fun he => by
      have := hcond s (he ▸ hsl) hd
      rw [hsame] at this
      simp [hset] at this
    rw [h.lookup_put hlt', Env.lookup_assign_of_ne h.stackedB le_rfl hB hne]
    exact h.outer m fun s' hs' hd' => (hsame s') ▸ hcond s' hs' hd'

/-- An assignment that neither the frame's slots nor the scope take goes to
both environments alike and keeps the frame standing for the scope. -/
theorem assign_outer_sim (h : FrameSim l fr EA aA b EB aB) {n : String} {v : Value}
    (hcond : ∀ s, l.shape.slotOf? n = some s → fr.slotSet s = false)
    {EA' EB' : Env} {aA' aB' : Arena}
    (hA : Env.assign aA (.frame fr :: EA) n v = some (.frame fr :: EA', aA'))
    (hA' : EA.assign aA n v = some (EA', aA')) (hB : EB.assign aB n v = some (EB', aB')) :
    FrameSim l fr EA' aA' b EB' aB' := by
  obtain ⟨t, ht, hrest, -⟩ := h.outer_stacked
  obtain ⟨hstA, hszA, -⟩ := Env.assign_footprint h.stackedA le_rfl hA
  obtain ⟨hstB, hszB, -⟩ := Env.assign_footprint h.stackedB le_rfl hB
  refine ⟨h.shape, h.numSlots, h.extra, h.vars, hszA ▸ hstA, hszB ▸ hstB, ?_, ?_, h.scope, ?_⟩
  · intro s hs hd
    rw [h.get?_assign hA']
    exact h.declared s hs hd
  · intro s hs hd hset
    have hne : l.shape.slotName s ≠ n := fun hn => by
      have := hcond s (hn ▸ Loop.slotOf?_slotName hs)
      simp [hset] at this
    rw [h.get?_assign hA', Env.lookup_assign_of_ne h.stackedB le_rfl hB hne,
      Env.lookup_assign_of_ne hrest ht hA' hne]
    exact h.copied s hs hd hset
  · intro m hm
    by_cases he : m = n
    · subst he
      rw [Env.lookup_assign_self hrest ht hA', Env.lookup_assign_self h.stackedB le_rfl hB]
    · rw [Env.lookup_assign_of_ne hrest ht hA' he, Env.lookup_assign_of_ne h.stackedB le_rfl hB he]
      exact h.outer m hm

/-- The frame and the scope take every assignment alike: both fail, or both
succeed and the frame still stands for the scope. -/
theorem assign_sim (h : FrameSim l fr EA aA b EB aB) (n : String) (v : Value) :
    (Env.assign aA (.frame fr :: EA) n v = none ∧ Env.assign aB (.scope b :: EB) n v = none) ∨
    ∃ fr' EA' aA' b' EB' aB', Env.assign aA (.frame fr :: EA) n v = some (.frame fr' :: EA', aA') ∧
      Env.assign aB (.scope b :: EB) n v = some (.scope b' :: EB', aB') ∧
      FrameSim l fr' EA' aA' b' EB' aB' := by
  have hf := h.sound
  by_cases hset : ∃ s, l.shape.slotOf? n = some s ∧ fr.slotSet s = true
  · -- the frame's slot takes the value
    obtain ⟨s, hsl, hss⟩ := hset
    have hfs : fr.slotOf? n = some s := by rw [h.slotOf?, hsl]
    have hlt := Loop.slotOf?_lt hsl
    have hname := Loop.slotName_of_slotOf? hsl
    have hsome : fr.get? aA s ≠ none := fun hn => by simp [Frame.get?_eq_none_iff.mp hn] at hss
    rw [Env.assign_frame_set EA hfs hss, Env.assign_scope]
    right
    cases hd : l.shape.slotDeclared s with
    | true =>
      have hb : b.has n = true := by
        rw [Bindings.has_eq_isSome, ← hname, ← h.declared s hlt hd, Option.isSome_iff_ne_none]
        exact hsome
      rw [if_pos hb]
      exact ⟨_, EA, _, b.put n v, EB, aB, rfl, rfl, put_declared_sim h hsl hd v⟩
    | false =>
      have hb : b.has n = false := by
        rw [Bindings.has_eq_isSome, ← hname, h.scope_copied hlt hd]; rfl
      obtain ⟨hget, -⟩ := h.copied s hlt hd hss
      have hEB : EB.lookup aB n ≠ none := by rw [← hname, ← hget]; exact hsome
      obtain ⟨⟨EB', aB'⟩, hB⟩ := Option.ne_none_iff_exists'.mp
        (mt (Env.assign_eq_none_iff EB).mp hEB)
      rw [if_neg (by simp [hb]), hB]
      exact ⟨_, EA, _, b, EB', aB', rfl, rfl, put_copied_sim h hsl hd hss hB⟩
  · -- the outer layers take the value, in both runs
    have hcond : ∀ s, l.shape.slotOf? n = some s → fr.slotSet s = false := fun s hs => by
      simpa using fun h' => hset ⟨s, hs, h'⟩
    have hoff : ∀ s, fr.slotOf? n = some s → fr.slotSet s = false := fun s hs =>
      hcond s (by rwa [h.slotOf?] at hs)
    have hb : b.get? n = none := by
      by_contra hb
      obtain ⟨s, hsl, hd⟩ := h.scope n hb
      have hget := h.declared s (Loop.slotOf?_lt hsl) hd
      rw [Loop.slotName_of_slotOf? hsl] at hget
      have := hcond s hsl
      rw [← Frame.get?_eq_none_iff, hget] at this
      exact hb this
    have hagree := h.outer n fun s hs _ => hcond s hs
    have hbn : b.has n = false := by rw [Bindings.has_eq_isSome, hb]; rfl
    have hnil : Bindings.has [] n = false := rfl
    rw [Env.assign_frame_unset EA hoff, Env.assign_scope, h.extra, if_neg (by simp [hnil]),
      if_neg (by simp [hbn])]
    cases hA : EA.assign aA n v with
    | none =>
      have hB : EB.assign aB n v = none := by
        rw [Env.assign_eq_none_iff, ← hagree, ← Env.assign_eq_none_iff, hA]
      left
      simp [hB]
    | some r =>
      obtain ⟨EA', aA'⟩ := r
      have hEB : EB.assign aB n v ≠ none := by
        rw [Ne, Env.assign_eq_none_iff, ← hagree, ← Env.assign_eq_none_iff, hA]
        simp
      obtain ⟨⟨EB', aB'⟩, hB⟩ := Option.ne_none_iff_exists'.mp hEB
      right
      refine ⟨fr, EA', aA', b, EB', aB', rfl, by rw [hB]; rfl, ?_⟩
      have hwhole : Env.assign aA (.frame fr :: EA) n v = some (.frame fr :: EA', aA') := by
        rw [Env.assign_frame_unset EA hoff, h.extra]
        simp [Bindings.has, hA]
      exact assign_outer_sim h hcond hwhole hA hB

/-- A declaration of a name the loop declares binds it in the frame's slot
and in the scope, and keeps the frame standing for the scope. -/
theorem declare_sim (h : FrameSim l fr EA aA b EB aB) {n : String} (hn : l.DeclOK n) (v : Value) :
    ∃ fr' aA', Env.declare aA (.frame fr :: EA) n v = (.frame fr' :: EA, aA') ∧
      Env.declare aB (.scope b :: EB) n v = (.scope (b.put n v) :: EB, aB) ∧
      FrameSim l fr' EA aA' (b.put n v) EB aB := by
  obtain ⟨s, hsl, hd⟩ := hn
  have hfs : fr.slotOf? n = some s := by rw [h.slotOf?, hsl]
  refine ⟨_, _, by simp only [Env.declare, hfs], rfl, put_declared_sim h hsl hd v⟩

end

/-! ## Opening the frame -/

/-- One step of the copy-in, on a slot's name, number and declared flag. -/
private def copyStep (parent : Env) (acc : Frame × Arena) (x : String × Nat × Bool) : Frame × Arena :=
  if x.2.2 then acc
  else match parent.lookup acc.2 x.1 with
    | some v => acc.1.put acc.2 x.2.1 v
    | none => acc

private theorem copyIn_eq (a : Arena) (parent : Env) (f : Frame) :
    Manager.copyIn a parent f =
      (f.vars.toList.map fun lv => (lv.name, lv.slot, lv.declared)).foldl (copyStep parent) (f, a) := by
  rw [Manager.copyIn, ← Array.foldl_toList, List.foldl_map]
  rfl

/-- What the copy-in has done after the first `k` slots of a fresh frame `f₀`
over `E`: the copied names among them hold their values, nothing else is set,
and no arena word outside the frame's slots changed. -/
private structure Copied (l : Loop) (E : Env) (f₀ : Frame) (a₀ : Arena) (k : Nat) (f : Frame)
    (a : Arena) : Prop where
  shape : f.shape = f₀.shape
  base : f.base = f₀.base
  vars : f.vars = f₀.vars
  extra : f.extra = f₀.extra
  numSlots : f.numSlots = f₀.numSlots
  sound : f.Sound
  size : a.size = a₀.size
  words : ∀ o, (∀ b, f₀.base = some b → o + 8 ≤ b ∨ b + 8 * f₀.numSlots ≤ o) → a.word o = a₀.word o
  slots : ∀ s < l.shape.numSlots, f.get? a s =
    if s < k ∧ l.shape.slotDeclared s = false then E.lookup a₀ (l.shape.slotName s) else none

section

variable {E : Env} {f₀ : Frame} {a₀ : Arena} {t : Nat}

private theorem copied_prefix (hsh : f₀.shape = l.shape) (hn : f₀.numSlots = l.shape.numSlots)
    (hf : f₀.Sound) (hfresh : ∀ s, f₀.get? a₀ s = none)
    (hfit : ∀ b, f₀.base = some b → b + 8 * f₀.numSlots ≤ a₀.size)
    (hE : E.Stacked t) (ht : ∀ b, f₀.base = some b → t ≤ b) :
    ∀ k ≤ l.shape.numSlots, Copied l E f₀ a₀ k
      (((List.range k).map fun s => (l.shape.slotName s, s, l.shape.slotDeclared s)).foldl
        (copyStep E) (f₀, a₀)).1
      (((List.range k).map fun s => (l.shape.slotName s, s, l.shape.slotDeclared s)).foldl
        (copyStep E) (f₀, a₀)).2
  | 0, _ => ⟨rfl, rfl, rfl, rfl, rfl, hf, rfl, fun _ _ => rfl, fun s _ => by simp [hfresh]⟩
  | k + 1, hk => by
    have ih := copied_prefix hsh hn hf hfresh hfit hE ht k (by omega)
    rw [List.range_succ, List.map_append, List.foldl_append]
    generalize hacc : ((List.range k).map fun s => (l.shape.slotName s, s, l.shape.slotDeclared s)).foldl
      (copyStep E) (f₀, a₀) = acc at ih
    obtain ⟨f, a⟩ := acc
    -- the parent's words are outside the frame, so its lookups read as before
    have hlook : ∀ n, E.lookup a n = E.lookup a₀ n := fun n =>
      Env.lookup_congr hE fun o ho => ih.words o fun b hb => by have := ht b hb; omega
    -- a slot that copies nothing leaves the frame and the arena as they were
    have hkeep (hnone : l.shape.slotDeclared k = false → E.lookup a₀ (l.shape.slotName k) = none) :
        Copied l E f₀ a₀ (k + 1) f a := by
      refine { ih with slots := fun s hs => ?_ }
      rw [ih.slots s hs]
      by_cases he : s = k
      · subst he
        cases hd : l.shape.slotDeclared s
        · simp [hnone hd]
        · simp
      · have : s < k ↔ s < k + 1 := by omega
        simp [this]
    simp only [List.map_cons, List.map_nil, List.foldl_cons, List.foldl_nil, copyStep]
    cases hd : l.shape.slotDeclared k with
    | true =>
      simp only [if_true]
      exact hkeep fun h => by simp [hd] at h
    | false =>
      simp only [Bool.false_eq_true, if_false, hlook]
      cases hv : E.lookup a₀ (l.shape.slotName k) with
      | none => exact hkeep fun _ => hv
      | some v =>
        have hkn : k < f.numSlots := by rw [ih.numSlots, hn]; omega
        refine ⟨by rw [Frame.put_shape, ih.shape], by rw [Frame.put_base, ih.base],
          by rw [Frame.put_vars, ih.vars], by rw [Frame.put_extra, ih.extra],
          by rw [Frame.put_numSlots, ih.numSlots], Frame.sound_put ih.sound,
          by rw [Frame.size_put, ih.size], fun o ho => ?_, fun s hs => ?_⟩
        · rw [Frame.word_put_of_outside hkn fun b hb => by
            rw [ih.numSlots]; exact ho b (ih.base ▸ hb)]
          exact ih.words o ho
        · by_cases he : s = k
          · subst he
            rw [Frame.get?_put_self hkn ih.sound fun b hb => by
              rw [ih.size, ih.numSlots]; exact hfit b (ih.base ▸ hb)]
            simp [hd, hv]
          · rw [Frame.get?_put_of_ne he, ih.slots s hs]
            have : s < k ↔ s < k + 1 := by omega
            simp [this]

/-- A frame of loop `l` with all slot tables fresh is sound and has no slot
set. -/
private theorem fresh_frame {f : Frame} (hsh : f.shape = l.shape)
    (hk : f.kinds = Array.replicate l.shape.numSlots .nil)
    (hi : f.isSet = Array.replicate l.shape.numSlots false)
    (ha : f.arrays = Array.replicate l.shape.numSlots [])
    (hh : f.heap = Array.replicate l.shape.numSlots 0) :
    f.numSlots = l.shape.numSlots ∧ f.Sound ∧ ∀ a s, f.get? a s = none := by
  have hn : f.numSlots = l.shape.numSlots := by simp [Frame.numSlots, hk]
  refine ⟨hn, ⟨fun h => ?_, fun h h' => ?_, by simp [hi, hn], by simp [ha, hn], by simp [hh, hn]⟩,
    fun a s => ?_⟩
  · rw [Frame.slotOf?, hsh] at h
    rw [hn]
    exact Loop.slotOf?_lt h
  · rw [Frame.slotOf?, hsh] at h h'
    exact Loop.slotOf?_inj h h'
  · simp only [Frame.get?, Frame.slotSet, hi, Array.getD_eq_getD_getElem?, Array.getElem?_replicate]
    split <;> simp_all

/-- A fresh frame of loop `l`, placed above everything its environment uses,
stands after the copy-in for an empty scope over the same environment. -/
private theorem copyIn_sim {aM a : Arena} (hsh : f₀.shape = l.shape)
    (hk : f₀.kinds = Array.replicate l.shape.numSlots .nil)
    (hi : f₀.isSet = Array.replicate l.shape.numSlots false)
    (ha : f₀.arrays = Array.replicate l.shape.numSlots [])
    (hh : f₀.heap = Array.replicate l.shape.numSlots 0)
    (hvars : f₀.vars.toList.map (fun lv => (lv.name, lv.slot, lv.declared)) =
      (List.range l.shape.numSlots).map fun s => (l.shape.slotName s, s, l.shape.slotDeclared s))
    (hextra : f₀.extra = [])
    (hplace : ∀ b, f₀.base = some b → aM.top ≤ b ∧ b + 8 * f₀.numSlots ≤ a.size)
    (hheap : f₀.base = none → aM.size ≤ a.size)
    (hE : E.Stacked aM.top) (htop : aM.top ≤ aM.size)
    (hwords : ∀ o, o + 8 ≤ aM.top → a.word o = aM.word o) :
    FrameSim l (Manager.copyIn a E f₀).1 E (Manager.copyIn a E f₀).2 [] E aM := by
  obtain ⟨hn, hf, hfresh⟩ := fresh_frame hsh hk hi ha hh
  have hc := copied_prefix hsh hn hf (hfresh a) (fun b hb => (hplace b hb).2) hE
    (fun b hb => (hplace b hb).1) l.shape.numSlots le_rfl
  rw [← hvars, ← copyIn_eq] at hc
  generalize Manager.copyIn a E f₀ = r at hc ⊢
  obtain ⟨f, a₁⟩ := r
  have hlook₁ : ∀ n, E.lookup a₁ n = E.lookup a n := fun n =>
    Env.lookup_congr hE fun o ho => hc.words o fun b hb => by have := (hplace b hb).1; omega
  have hlook : ∀ n, E.lookup a₁ n = E.lookup aM n := fun n => by
    rw [hlook₁, Env.lookup_congr hE fun o ho => hwords o ho]
  refine ⟨hc.shape.trans hsh, hc.numSlots.trans hn, hc.extra.trans hextra,
    by rw [hc.vars, hvars], ?_, hE.mono htop, ?_, ?_, fun n hb => by simp at hb, fun n _ => hlook n⟩
  · refine Env.stacked_frame.mpr ⟨hc.sound, fun b hb => ?_, fun hb => ?_⟩
    · rw [hc.base] at hb
      obtain ⟨hle, hfit⟩ := hplace b hb
      exact ⟨by rw [hc.numSlots, hc.size]; exact hfit, hE.mono hle⟩
    · rw [hc.base] at hb
      exact hE.mono (by rw [hc.size]; exact le_trans htop (hheap hb))
  · intro s hs hd
    rw [hc.slots s hs]
    simp [hd]
  · intro s hs hd hset
    have hget := hc.slots s hs
    simp only [hs, hd, and_self, if_true] at hget
    refine ⟨by rw [hget, ← hlook₁, hlook], fun hn' => ?_⟩
    have : f.get? a₁ s = none := by rw [hget, ← hlook₁, hn']
    simp [Frame.get?_eq_none_iff.mp this] at hset

end

/-- Opening a frame for loop `l` over an environment stacked below the
arena's top succeeds below the nesting limit, and the frame stands for an
empty scope over the same environment, whether its slots went to the arena or
to the heap. -/
theorem enter_sim {m : Manager} {E : Env} (hE : E.Stacked m.arena.top)
    (htop : m.arena.top ≤ m.arena.size) (hpos : 0 < m.arena.size)
    (hceil : m.arena.ceiling ≤ 2 ^ 64) (hdepth : m.depth < m.maxNestingDepth) :
    ∃ fr m', m.enter l l.shape E = .ok (fr, m') ∧ FrameSim l fr E m'.arena [] E m.arena := by
  unfold Manager.enter
  rw [if_neg (by omega)]
  have hvars : ∀ (mk : Nat → LoopVariable), (∀ s, (mk s).name = l.shape.slotName s) →
      (∀ s, (mk s).slot = s) → (∀ s, (mk s).declared = l.shape.slotDeclared s) →
      ((List.range l.shape.numSlots).map mk).toArray.toList.map
        (fun lv => (lv.name, lv.slot, lv.declared)) =
      (List.range l.shape.numSlots).map fun s => (l.shape.slotName s, s, l.shape.slotDeclared s) := by
    intro mk h₁ h₂ h₃
    simp [List.map_map, Function.comp_def, h₁, h₂, h₃]
  dsimp only
  split
  · split
    · -- the slots fit in the arena
      rename_i off a halloc
      obtain ⟨hoff, hfit, hwords⟩ := Arena.allocate_spec halloc hpos hceil htop
      refine ⟨_, _, rfl, copyIn_sim rfl rfl rfl rfl rfl (hvars _ (fun _ => rfl) (fun _ => rfl)
        (fun _ => rfl)) rfl ?_ (by simp) hE htop hwords⟩
      intro b hb
      cases hb
      have : (8 * (l.shape.numSlots : Int)).toNat = 8 * l.shape.numSlots := by omega
      rw [this] at hfit
      exact ⟨hoff, by simpa [Frame.numSlots] using hfit⟩
    · -- the arena is full: the slots go to the heap
      exact ⟨_, _, rfl, copyIn_sim rfl rfl rfl rfl rfl (hvars _ (fun _ => rfl) (fun _ => rfl)
        (fun _ => rfl)) rfl (by simp) (fun _ => le_rfl) hE htop fun _ _ => rfl⟩
  · -- no preallocation: the slots go to the heap
    exact ⟨_, _, rfl, copyIn_sim rfl rfl rfl rfl rfl (hvars _ (fun _ => rfl) (fun _ => rfl)
      (fun _ => rfl)) rfl (by simp) (fun _ => le_rfl) hE htop fun _ _ => rfl⟩

/-! ## Closing the frame -/

/-- One step of the write-back, on a slot's name, number and declared flag. -/
private def backStep (f : Frame) (acc : Env × Arena × Option Error) (x : String × Nat × Bool) :
    Env × Arena × Option Error :=
  if x.2.2 then acc
  else match f.get? acc.2.1 x.2.1 with
    | none => acc
    | some v => match acc.1.assign acc.2.1 x.1 v with
      | some (env, a) => (env, a, acc.2.2)
      | none => (acc.1, acc.2.1, acc.2.2 <|> some (Env.undefined x.1))

private theorem writeBack_eq (a : Arena) (parent : Env) (f : Frame) :
    Manager.writeBack a parent f =
      (f.vars.toList.map fun lv => (lv.name, lv.slot, lv.declared)).foldl (backStep f)
        (parent, a, none) := by
  rw [Manager.writeBack, ← Array.foldl_toList, List.foldl_map]
  rfl

/-- What the write-back has done after the first `k` slots: the copied names
among them hold their slots' values, every other name reads as in the
frame's environment, nothing failed, and no word at or above `t` (where the
frame's slots are) changed. -/
private structure Written (l : Loop) (fr : Frame) (EA : Env) (aA : Arena) (t k : Nat) (E : Env)
    (a : Arena) (err : Option Error) : Prop where
  err : err = none
  stacked : E.Stacked t
  size : a.size = aA.size
  words : ∀ o, t ≤ o → a.word o = aA.word o
  back : ∀ s < k, l.shape.slotDeclared s = false → fr.slotSet s = true →
    E.lookup a (l.shape.slotName s) = fr.get? aA s
  rest : ∀ n, (∀ s < k, l.shape.slotName s = n → l.shape.slotDeclared s = false →
    fr.slotSet s = false) → E.lookup a n = EA.lookup aA n

section

variable {fr : Frame} {EA EB : Env} {aA aB : Arena} {b : Bindings}

private theorem written_prefix (h : FrameSim l fr EA aA b EB aB) {t : Nat} (ht : t ≤ aA.size)
    (hEA : EA.Stacked t) (hbase : ∀ o, fr.base = some o → t ≤ o) :
    ∀ k ≤ l.shape.numSlots, Written l fr EA aA t k
      (((List.range k).map fun s => (l.shape.slotName s, s, l.shape.slotDeclared s)).foldl
        (backStep fr) (EA, aA, none)).1
      (((List.range k).map fun s => (l.shape.slotName s, s, l.shape.slotDeclared s)).foldl
        (backStep fr) (EA, aA, none)).2.1
      (((List.range k).map fun s => (l.shape.slotName s, s, l.shape.slotDeclared s)).foldl
        (backStep fr) (EA, aA, none)).2.2
  | 0, _ => ⟨rfl, hEA, rfl, fun _ _ => rfl, fun s hs => by omega, fun _ _ => rfl⟩
  | k + 1, hk => by
    have ih := written_prefix h ht hEA hbase k (by omega)
    rw [List.range_succ, List.map_append, List.foldl_append]
    generalize ((List.range k).map fun s => (l.shape.slotName s, s, l.shape.slotDeclared s)).foldl
      (backStep fr) (EA, aA, none) = acc at ih
    obtain ⟨E, a, err⟩ := acc
    have hklt : k < l.shape.numSlots := by omega
    -- slots below `k` own names other than slot `k`'s
    have hother : ∀ s < k, l.shape.slotName s ≠ l.shape.slotName k := fun s hs he =>
      absurd (Loop.slotName_inj (by omega) hklt he) (by omega)
    have hframe : ∀ s, fr.get? a s = fr.get? aA s := fun s =>
      Frame.get?_congr fun o ho => ih.words _ (by have := hbase o ho; omega)
    simp only [List.map_cons, List.map_nil, List.foldl_cons, List.foldl_nil, backStep, hframe]
    -- slots below `k + 1` other than `k` are those below `k`
    have hlow : ∀ s < k + 1, s ≠ k → s < k := fun s hs hne => by omega
    -- a slot that writes nothing back leaves the environment as it was
    have hkeep (hskip : l.shape.slotDeclared k = false → fr.slotSet k = false) :
        Written l fr EA aA t (k + 1) E a err := by
      refine ⟨ih.err, ih.stacked, ih.size, ih.words, fun s hs hsd hss => ?_, fun n hn =>
        ih.rest n fun s hs => hn s (by omega)⟩
      have hsk : s ≠ k := by rintro rfl; simp [hskip hsd] at hss
      exact ih.back s (hlow s hs hsk) hsd hss
    by_cases hd : l.shape.slotDeclared k = true
    · -- a declared slot is not written back
      simp only [hd, if_true]
      exact hkeep fun h' => by simp [hd] at h'
    have hd' : l.shape.slotDeclared k = false := by simpa using hd
    simp only [hd', Bool.false_eq_true, if_false]
    cases hg : fr.get? aA k with
    | none =>
      -- an unset slot is not written back either
      exact hkeep fun _ => Frame.get?_eq_none_iff.mp hg
    | some v =>
      have hset : fr.slotSet k = true := by
        cases h' : fr.slotSet k
        · simp [Frame.get?_eq_none_iff.mpr h'] at hg
        · rfl
      -- the name is bound outside the frame, so the assignment succeeds
      have hlk : E.lookup a (l.shape.slotName k) = EA.lookup aA (l.shape.slotName k) :=
        ih.rest _ fun s hs he => absurd he (hother s hs)
      have hne : E.assign a (l.shape.slotName k) v ≠ none := by
        rw [Ne, Env.assign_eq_none_iff, hlk]
        exact (h.copied k hklt hd' hset).2
      obtain ⟨⟨E', a'⟩, hass⟩ := Option.ne_none_iff_exists'.mp hne
      simp only [hass]
      have hta : t ≤ a.size := ih.size ▸ ht
      obtain ⟨hst, hsz, hw⟩ := Env.assign_footprint ih.stacked hta hass
      refine ⟨ih.err, hst, hsz.trans ih.size, fun o ho => (hw o ho).trans (ih.words o ho),
        fun s hs hsd hss => ?_, fun n hn => ?_⟩
      · by_cases hsk : s = k
        · subst hsk
          rw [Env.lookup_assign_self ih.stacked hta hass, hg]
        · rw [Env.lookup_assign_of_ne ih.stacked hta hass (hother s (hlow s hs hsk))]
          exact ih.back s (hlow s hs hsk) hsd hss
      · have hnk : n ≠ l.shape.slotName k := by
          rintro rfl; simp [hn k (by omega) rfl hd'] at hset
        rw [Env.lookup_assign_of_ne ih.stacked hta hass hnk]
        exact ih.rest n fun s hs => hn s (by omega)

/-- Writing back a frame that simulates a scope succeeds and leaves the
environment the scope's outer environment reads as. -/
private theorem writeBack_sim (h : FrameSim l fr EA aA b EB aB) :
    ∃ t E a, Manager.writeBack aA EA fr = (E, a, none) ∧ E.Stacked t ∧
      ∀ n, E.lookup a n = EB.lookup aB n := by
  obtain ⟨t, ht, hEA, hbase⟩ := h.outer_stacked
  have hw := written_prefix h ht hEA hbase _ le_rfl
  rw [writeBack_eq, h.vars]
  refine ⟨t, _, _, Prod.ext rfl (Prod.ext rfl hw.err), hw.stacked, fun n => ?_⟩
  by_cases hc : ∃ s < l.shape.numSlots, l.shape.slotName s = n ∧ l.shape.slotDeclared s = false ∧
      fr.slotSet s = true
  · -- a copied name: the slot's value went back, and it is what the scope's outer layers hold
    obtain ⟨s, hs, rfl, hsd, hss⟩ := hc
    rw [hw.back s hs hsd hss, (h.copied s hs hsd hss).1]
  · -- any other name was never touched, and the frame's environment agrees there
    push Not at hc
    have hun : ∀ s < l.shape.numSlots, l.shape.slotName s = n → l.shape.slotDeclared s = false →
        fr.slotSet s = false := fun s hs hn hsd => by simpa using hc s hs hn hsd
    rw [hw.rest n hun]
    exact h.outer n fun s hs hsd =>
      hun s (Loop.slotOf?_lt hs) (Loop.slotName_of_slotOf? hs) hsd

/-- Closing a frame that simulates a scope reports no error, and afterwards
every name reads as it does once the scope is dropped. -/
theorem exit_sim (h : FrameSim l fr EA aA b EB aB) (m : Manager) (hm : m.arena = aA) :
    (m.exit fr EA).2.2 = none ∧
      ∀ n, (m.exit fr EA).2.1.lookup (m.exit fr EA).1.arena n = EB.lookup aB n := by
  obtain ⟨t, E, a, hwb, hst, hlk⟩ := writeBack_sim h
  rw [Manager.exit, hm, hwb]
  exact ⟨rfl, fun n => (Env.lookup_congr hst fun o _ => by simp).trans (hlk n)⟩

end

end HotLoop