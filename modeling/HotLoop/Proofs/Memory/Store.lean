import HotLoop.Proofs.Memory.Arena
import HotLoop.Memory.Frame
/-!
# HotLoop.Proofs.Memory.Store

Environments as stores. A scope's bindings, a frame's slots and a whole
chain of layers each read back what was last written to a name and leave
every other name as it was.

For frames this needs two things the types do not say. A frame is *sound*
when its slot tables are as long as it has slots and distinct promoted names
own distinct slots. An environment is *stacked* below an arena offset `t`
when its frames are sound and their arena slots lie below `t`, each frame's
below those of the frames inside it, as the stack arena lays them out. A
write through a stacked environment then touches only words below `t`, and
its lookups read only words below `t`.
-/

namespace HotLoop

/-! ## Scopes -/

namespace Bindings

variable {b : Bindings} {n m : String} {v : Value}

@[simp] theorem get?_nil : Bindings.get? [] n = none := rfl

theorem get?_cons (p : String × Value) (b : Bindings) :
    Bindings.get? (p :: b) m = if p.1 = m then some p.2 else b.get? m := by
  by_cases h : p.1 = m <;> simp [get?, h]

theorem has_eq_isSome : b.has n = (b.get? n).isSome := by
  induction b with
  | nil => rfl
  | cons p b ih =>
    have hc : Bindings.has (p :: b) n = (p.1 == n || Bindings.has b n) := rfl
    rw [hc, get?_cons, ih]
    by_cases h : p.1 = n <;> simp [h]

private theorem get?_replace (b : Bindings) :
    Bindings.get? (b.map fun p => if p.1 == n then (n, v) else p) m =
      if m = n ∧ b.has n then some v else b.get? m := by
  induction b with
  | nil => simp [has]
  | cons p b ih =>
    have hc : Bindings.has (p :: b) n = (p.1 == n || Bindings.has b n) := rfl
    rw [List.map_cons, get?_cons, ih, hc, get?_cons]
    by_cases hp : p.1 = n
    · by_cases hm : m = n
      · simp [hp, hm]
      · have : ¬ n = m := fun h => hm h.symm
        simp [hp, hm, this]
    · by_cases hm : p.1 = m
      · have : m ≠ n := fun h => hp (hm.trans h)
        simp [hm, this]
      · simp [hp, hm]

private theorem get?_append_single (b : Bindings) :
    Bindings.get? (b ++ [(n, v)]) m = match b.get? m with
      | some x => some x
      | none => if n = m then some v else none := by
  induction b with
  | nil => by_cases h : n = m <;> simp [get?_cons, h]
  | cons p b ih =>
    rw [List.cons_append, get?_cons, ih, get?_cons]
    by_cases hp : p.1 = m <;> simp [hp]

@[simp] theorem get?_put_self : (b.put n v).get? n = some v := by
  unfold put
  split
  · rename_i h
    rw [get?_replace, if_pos ⟨rfl, h⟩]
  · rename_i h
    have hn : b.get? n = none := by
      simpa [has_eq_isSome] using (show b.has n = false from Bool.eq_false_iff.mpr h)
    rw [get?_append_single, hn, if_pos rfl]

theorem get?_put_of_ne (h : m ≠ n) : (b.put n v).get? m = b.get? m := by
  unfold put
  split
  · rw [get?_replace, if_neg fun hm => h hm.1]
  · rw [get?_append_single]
    cases b.get? m <;> simp [Ne.symm h]

end Bindings

/-! ## Slot words -/

/-- A scalar's word, read back at its kind, is the scalar. -/
theorem Value.ofBits_kind_bits (v : Value) (h : v.kind ≠ .array) : Value.ofBits v.kind v.bits = v := by
  cases v with
  | nil => rfl
  | int n => exact Value.ofBits_bits_int n
  | float x => rfl
  | bool b => cases b <;> rfl
  | array es => exact absurd rfl h

/-! ## Frames -/

namespace Frame

/-- A frame whose slot tables are as long as it has slots and whose promoted
names own distinct slots among them. -/
structure Sound (f : Frame) : Prop where
  slot_lt : ∀ {n s}, f.slotOf? n = some s → s < f.numSlots
  slot_inj : ∀ {n n' s}, f.slotOf? n = some s → f.slotOf? n' = some s → n = n'
  isSet_size : f.isSet.size = f.numSlots
  arrays_size : f.arrays.size = f.numSlots
  heap_size : f.heap.size = f.numSlots

variable {f : Frame} {a : Arena} {s s' : Nat} {v : Value}

/-- The three ways a put goes: an array beside the slot, a scalar word in the
arena, a scalar word on the heap. -/
theorem put_cases (f : Frame) (a : Arena) (s : Nat) (v : Value) :
    (∃ es, v = .array es ∧ f.put a s v =
      ({ f with isSet := f.isSet.set! s true, kinds := f.kinds.set! s v.kind,
                arrays := f.arrays.set! s es }, a)) ∨
    (v.kind ≠ .array ∧ ∃ b, f.base = some b ∧ f.put a s v =
      ({ f with isSet := f.isSet.set! s true, kinds := f.kinds.set! s v.kind },
        a.putWord (b + 8 * s) v.bits)) ∨
    (v.kind ≠ .array ∧ f.base = none ∧ f.put a s v =
      ({ f with isSet := f.isSet.set! s true, kinds := f.kinds.set! s v.kind,
                heap := f.heap.set! s v.bits }, a)) := by
  cases v with
  | array es => exact .inl ⟨es, rfl, rfl⟩
  | _ =>
    right
    cases hb : f.base with
    | some b => exact .inl ⟨by simp [Value.kind], b, rfl, by simp [put, putWord, hb]⟩
    | none => exact .inr ⟨by simp [Value.kind], rfl, by simp [put, putWord, hb]⟩

@[simp] theorem put_shape : (f.put a s v).1.shape = f.shape := by
  rcases put_cases f a s v with ⟨_, _, h⟩ | ⟨_, _, _, h⟩ | ⟨_, _, h⟩ <;> rw [h]

@[simp] theorem put_base : (f.put a s v).1.base = f.base := by
  rcases put_cases f a s v with ⟨_, _, h⟩ | ⟨_, _, _, h⟩ | ⟨_, _, h⟩ <;> rw [h]

@[simp] theorem put_vars : (f.put a s v).1.vars = f.vars := by
  rcases put_cases f a s v with ⟨_, _, h⟩ | ⟨_, _, _, h⟩ | ⟨_, _, h⟩ <;> rw [h]

@[simp] theorem put_extra : (f.put a s v).1.extra = f.extra := by
  rcases put_cases f a s v with ⟨_, _, h⟩ | ⟨_, _, _, h⟩ | ⟨_, _, h⟩ <;> rw [h]

@[simp] theorem put_mark : (f.put a s v).1.mark = f.mark := by
  rcases put_cases f a s v with ⟨_, _, h⟩ | ⟨_, _, _, h⟩ | ⟨_, _, h⟩ <;> rw [h]

@[simp] theorem put_numSlots : (f.put a s v).1.numSlots = f.numSlots := by
  rcases put_cases f a s v with ⟨_, _, h⟩ | ⟨_, _, _, h⟩ | ⟨_, _, h⟩ <;> rw [h] <;>
    simp [numSlots]

@[simp] theorem slotOf?_put {n : String} : (f.put a s v).1.slotOf? n = f.slotOf? n := by
  simp only [slotOf?, put_shape]

@[simp] theorem size_put : (f.put a s v).2.size = a.size := by
  rcases put_cases f a s v with ⟨_, _, h⟩ | ⟨_, _, _, h⟩ | ⟨_, _, h⟩ <;> rw [h]
  exact Arena.size_putWord

theorem slotSet_put (hs : s < f.isSet.size) (s' : Nat) :
    (f.put a s v).1.slotSet s' = if s = s' then true else f.slotSet s' := by
  have key : (f.isSet.set! s true).getD s' false = if s = s' then true else f.isSet.getD s' false := by
    simp only [Array.getD_eq_getD_getElem?, Array.set!_eq_setIfInBounds, Array.getElem?_setIfInBounds]
    by_cases h : s = s'
    · subst h; simp [hs]
    · simp [h]
  rcases put_cases f a s v with ⟨_, _, h⟩ | ⟨_, _, _, h⟩ | ⟨_, _, h⟩ <;> rw [h] <;> exact key

theorem sound_put (hf : f.Sound) : (f.put a s v).1.Sound where
  slot_lt h := by rw [slotOf?_put] at h; rw [put_numSlots]; exact hf.slot_lt h
  slot_inj h h' := by rw [slotOf?_put] at h h'; exact hf.slot_inj h h'
  isSet_size := by
    rcases put_cases f a s v with ⟨_, _, h⟩ | ⟨_, _, _, h⟩ | ⟨_, _, h⟩ <;> rw [h] <;>
      simp [numSlots, hf.isSet_size]
  arrays_size := by
    rcases put_cases f a s v with ⟨_, _, h⟩ | ⟨_, _, _, h⟩ | ⟨_, _, h⟩ <;> rw [h] <;>
      simp [numSlots, hf.arrays_size]
  heap_size := by
    rcases put_cases f a s v with ⟨_, _, h⟩ | ⟨_, _, _, h⟩ | ⟨_, _, h⟩ <;> rw [h] <;>
      simp [numSlots, hf.heap_size]

/-- A slot reads back the value put into it. -/
theorem get?_put_self (hs : s < f.numSlots) (hf : f.Sound)
    (hfit : ∀ b, f.base = some b → b + 8 * f.numSlots ≤ a.size) :
    (f.put a s v).1.get? (f.put a s v).2 s = some v := by
  have hset : s < f.isSet.size := hf.isSet_size ▸ hs
  have hk : s < f.kinds.size := hs
  rcases put_cases f a s v with ⟨es, rfl, h⟩ | ⟨hv, b, hb, h⟩ | ⟨hv, hb, h⟩ <;> rw [h]
  · have harr : s < f.arrays.size := hf.arrays_size ▸ hs
    simp [get?, slotSet, kind, Array.getD_eq_getD_getElem?, Value.kind, hset, hk, harr]
  · have hw : b + 8 * s + 8 ≤ a.size := by have := hfit b hb; omega
    simp [get?, slotSet, kind, word, hb, Array.getD_eq_getD_getElem?, hset, hk, hv,
      Arena.word_putWord_self hw, Value.ofBits_kind_bits]
  · have hh : s < f.heap.size := hf.heap_size ▸ hs
    simp [get?, slotSet, kind, word, hb, Array.getD_eq_getD_getElem?, hset, hk, hh, hv,
      Value.ofBits_kind_bits]

/-- Putting a value in one slot leaves the others. -/
theorem get?_put_of_ne (h : s' ≠ s) : (f.put a s v).1.get? (f.put a s v).2 s' = f.get? a s' := by
  have hne : s ≠ s' := Ne.symm h
  rcases put_cases f a s v with ⟨es, rfl, h⟩ | ⟨hv, b, hb, h⟩ | ⟨hv, hb, h⟩ <;> rw [h]
  · simp [get?, slotSet, kind, word, Array.getD_eq_getD_getElem?, Array.set!_eq_setIfInBounds, hne]
  · have hw : (b + 8 * s' + 8 ≤ b + 8 * s ∨ b + 8 * s + 8 ≤ b + 8 * s') := by omega
    simp [get?, slotSet, kind, word, hb, Array.getD_eq_getD_getElem?, Array.set!_eq_setIfInBounds,
      hne, Arena.word_putWord_of_disjoint hw]
  · simp [get?, slotSet, kind, word, hb, Array.getD_eq_getD_getElem?, Array.set!_eq_setIfInBounds, hne]

/-- Putting a value in a slot changes no arena word outside the frame's
slots. -/
theorem word_put_of_outside (hs : s < f.numSlots) {o : Nat}
    (ho : ∀ b, f.base = some b → o + 8 ≤ b ∨ b + 8 * f.numSlots ≤ o) :
    (f.put a s v).2.word o = a.word o := by
  rcases put_cases f a s v with ⟨_, _, h⟩ | ⟨_, b, hb, h⟩ | ⟨_, _, h⟩ <;> rw [h]
  apply Arena.word_putWord_of_disjoint
  have := ho b hb
  omega

/-- A slot reads only its own word of the arena. -/
theorem get?_congr {a' : Arena} (hw : ∀ b, f.base = some b → a'.word (b + 8 * s) = a.word (b + 8 * s)) :
    f.get? a' s = f.get? a s := by
  have hword : f.word a' s = f.word a s := by
    unfold word
    cases hb : f.base with
    | some b => exact hw b hb
    | none => rfl
  simp only [get?, hword]

theorem get?_eq_none_iff : f.get? a s = none ↔ f.slotSet s = false := by
  unfold get?
  split
  · rename_i h; simp only [h]; split <;> simp
  · rename_i h; simpa using h

end Frame

/-! ## Environments -/

namespace Env

/-- The frames of an environment are sound and lie in the arena below `t`,
each one below the frames inside it. -/
def Stacked : Env → Nat → Prop
  | [], _ => True
  | .scope _ :: rest, t => Stacked rest t
  | .frame f :: rest, t => f.Sound ∧ match f.base with
    | some b => b + 8 * f.numSlots ≤ t ∧ Stacked rest b
    | none => Stacked rest t

theorem stacked_frame {f : Frame} {rest : Env} {t : Nat} :
    Stacked (.frame f :: rest) t ↔ f.Sound ∧
      (∀ b, f.base = some b → b + 8 * f.numSlots ≤ t ∧ rest.Stacked b) ∧
      (f.base = none → rest.Stacked t) := by
  simp only [Stacked]
  cases f.base <;> simp

/-- The layers outside a stacked frame are stacked below its slots (below
`t` for a heap frame). -/
theorem Stacked.frame_rest {f : Frame} {rest : Env} {t : Nat} (h : Stacked (.frame f :: rest) t) :
    ∃ t', t' ≤ t ∧ rest.Stacked t' ∧ ∀ b, f.base = some b → t' = b ∧ b + 8 * f.numSlots ≤ t := by
  obtain ⟨_, hsome, hnone⟩ := stacked_frame.mp h
  cases hb : f.base with
  | some b =>
    obtain ⟨hle, hrest⟩ := hsome b hb
    exact ⟨b, by omega, hrest, fun b' hb' => by cases hb' ; exact ⟨rfl, hle⟩⟩
  | none => exact ⟨t, le_refl t, hnone hb, fun b' hb' => by cases hb'⟩

theorem Stacked.mono : ∀ {E : Env} {t t' : Nat}, E.Stacked t → t ≤ t' → E.Stacked t'
  | [], _, _, _, _ => trivial
  | .scope _ :: rest, _, _, h, ht => Stacked.mono (E := rest) h ht
  | .frame f :: rest, t, t', h, ht => by
    obtain ⟨hf, hsome, hnone⟩ := stacked_frame.mp h
    refine stacked_frame.mpr ⟨hf, fun b hb => ?_, fun hb => Stacked.mono (hnone hb) ht⟩
    obtain ⟨hle, hrest⟩ := hsome b hb
    exact ⟨by omega, hrest⟩

variable {a a' : Arena} {n m : String} {v : Value}

theorem lookup_scope (b : Bindings) (rest : Env) :
    lookup a (.scope b :: rest) n = match b.get? n with
      | some x => some x
      | none => lookup a rest n := rfl

/-- A frame whose slot for `n` is set answers for `n`. -/
theorem lookup_frame_set {f : Frame} {s : Nat} (rest : Env) (hs : f.slotOf? n = some s)
    {x : Value} (hx : f.get? a s = some x) : lookup a (.frame f :: rest) n = some x := by
  simp only [lookup, hs, hx]

/-- A frame without a set slot for `n` answers from its other bindings,
then from the layers outside it. -/
theorem lookup_frame_unset {f : Frame} (rest : Env)
    (hs : ∀ s, f.slotOf? n = some s → f.slotSet s = false) :
    lookup a (.frame f :: rest) n = match f.extra.get? n with
      | some x => some x
      | none => lookup a rest n := by
  rw [lookup.eq_3]
  cases hs' : f.slotOf? n with
  | none => rfl
  | some s =>
    -- split on the other bindings too, so that both sides reduce all the way
    cases f.extra.get? n <;> simp only [(Frame.get?_eq_none_iff).mpr (hs s hs')]

theorem assign_scope (b : Bindings) (rest : Env) :
    assign a (.scope b :: rest) n v =
      if b.has n then some (.scope (b.put n v) :: rest, a)
      else (assign a rest n v).map fun r => (.scope b :: r.1, r.2) := rfl

theorem assign_frame_set {f : Frame} {s : Nat} (rest : Env) (hs : f.slotOf? n = some s)
    (hset : f.slotSet s = true) :
    assign a (.frame f :: rest) n v = some (.frame (f.put a s v).1 :: rest, (f.put a s v).2) := by
  simp only [assign, hs, hset, if_true]

theorem assign_frame_unset {f : Frame} (rest : Env)
    (hs : ∀ s, f.slotOf? n = some s → f.slotSet s = false) :
    assign a (.frame f :: rest) n v =
      if f.extra.has n then some (.frame { f with extra := f.extra.put n v } :: rest, a)
      else (assign a rest n v).map fun r => (.frame f :: r.1, r.2) := by
  rw [assign.eq_3]
  cases hs' : f.slotOf? n with
  | none => rfl
  | some s => simp only [hs s hs', Bool.false_eq_true, if_false]

/-- An assignment fails exactly when no layer binds the name. -/
theorem assign_eq_none_iff : ∀ (E : Env), assign a E n v = none ↔ lookup a E n = none
  | [] => by simp [assign, lookup]
  | .scope b :: rest => by
    rw [assign_scope, lookup_scope, Bindings.has_eq_isSome]
    cases hb : b.get? n
    · simp only [Option.isSome_none, Bool.false_eq_true, if_false, Option.map_eq_none_iff]
      exact assign_eq_none_iff rest
    · simp
  | .frame f :: rest => by
    by_cases hset : ∃ s, f.slotOf? n = some s ∧ f.slotSet s = true
    · obtain ⟨s, hs, hss⟩ := hset
      have hx : f.get? a s ≠ none := fun h => by
        rw [Frame.get?_eq_none_iff] at h; simp [h] at hss
      obtain ⟨x, hx⟩ := Option.ne_none_iff_exists'.mp hx
      rw [assign_frame_set rest hs hss, lookup_frame_set rest hs hx]
      simp
    · have hoff : ∀ s, f.slotOf? n = some s → f.slotSet s = false := fun s hs => by
        simpa using fun h => hset ⟨s, hs, h⟩
      rw [assign_frame_unset rest hoff, lookup_frame_unset rest hoff, Bindings.has_eq_isSome]
      cases hb : f.extra.get? n
      · simp only [Option.isSome_none, Bool.false_eq_true, if_false, Option.map_eq_none_iff]
        exact assign_eq_none_iff rest
      · simp

/-- Lookups through a stacked environment read only words below `t`. -/
theorem lookup_congr : ∀ {E : Env} {t : Nat}, E.Stacked t →
    (∀ o, o + 8 ≤ t → a'.word o = a.word o) → lookup a' E n = lookup a E n
  | [], _, _, _ => rfl
  | .scope b :: rest, t, hE, hw => by
    rw [lookup_scope, lookup_scope, lookup_congr (E := rest) hE hw]
  | .frame f :: rest, t, hE, hw => by
    have hslot : ∀ s, f.slotOf? n = some s → f.get? a' s = f.get? a s := fun s hs =>
      Frame.get?_congr fun b hb => by
        have h2 := hE.2
        simp only [hb] at h2
        have := hE.1.slot_lt hs
        exact hw _ (by omega)
    have hrest : lookup a' rest n = lookup a rest n := by
      have h2 := hE.2
      split at h2
      · exact lookup_congr h2.2 fun o ho => hw o (by omega)
      · exact lookup_congr h2 hw
    unfold lookup
    split
    · rename_i s hs
      rw [hslot s hs, hrest]
    · rw [hrest]

/-- What an assignment through a stacked environment may change: the
environment stays stacked, the buffer keeps its size and no word at or above
`t` changes. -/
theorem assign_footprint {E E' : Env} {t : Nat} (hE : E.Stacked t) (ht : t ≤ a.size)
    (h : assign a E n v = some (E', a')) :
    E'.Stacked t ∧ a'.size = a.size ∧ ∀ o, t ≤ o → a'.word o = a.word o := by
  induction E generalizing E' t a' with
  | nil => simp [assign] at h
  | cons layer rest ih =>
    cases layer with
    | scope b =>
      rw [assign_scope] at h
      split at h
      · cases h; exact ⟨hE, rfl, fun _ _ => rfl⟩
      · obtain ⟨⟨rest', a₁⟩, hr, he⟩ := Option.map_eq_some_iff.mp h
        cases he
        obtain ⟨hst, hsz, hw⟩ := ih hE ht hr
        exact ⟨hst, hsz, hw⟩
    | frame f =>
      obtain ⟨hf, hsome, hnone⟩ := stacked_frame.mp hE
      by_cases hset : ∃ s, f.slotOf? n = some s ∧ f.slotSet s = true
      · -- the frame's own slot takes the value
        obtain ⟨s, hs, hss⟩ := hset
        rw [assign_frame_set rest hs hss] at h
        cases h
        refine ⟨stacked_frame.mpr ⟨Frame.sound_put hf, ?_, ?_⟩, Frame.size_put, fun o ho => ?_⟩
        · intro b hb
          rw [Frame.put_base] at hb
          rw [Frame.put_numSlots]
          exact hsome b hb
        · intro hb
          rw [Frame.put_base] at hb
          exact hnone hb
        · apply Frame.word_put_of_outside (hf.slot_lt hs)
          intro b hb
          have := (hsome b hb).1
          omega
      · have hoff : ∀ s, f.slotOf? n = some s → f.slotSet s = false := fun s hs => by
          simpa using fun h => hset ⟨s, hs, h⟩
        rw [assign_frame_unset rest hoff] at h
        split at h
        · cases h
          exact ⟨stacked_frame.mpr ⟨⟨hf.1, hf.2, hf.3, hf.4, hf.5⟩, hsome, hnone⟩, rfl, fun _ _ => rfl⟩
        · -- the layers outside take the value, below the frame's slots
          obtain ⟨⟨rest', a₁⟩, hr, he⟩ := Option.map_eq_some_iff.mp h
          cases he
          cases hb : f.base with
          | some b =>
            obtain ⟨hle, hrest⟩ := hsome b hb
            obtain ⟨hst, hsz, hw⟩ := ih hrest (by omega) hr
            refine ⟨stacked_frame.mpr ⟨hf, fun b' hb' => ?_, fun hb' => by simp [hb] at hb'⟩, hsz,
              fun o ho => hw o (by omega)⟩
            cases hb.symm.trans hb'
            exact ⟨hle, hst⟩
          | none =>
            obtain ⟨hst, hsz, hw⟩ := ih (hnone hb) ht hr
            exact ⟨stacked_frame.mpr ⟨hf, fun b' hb' => by simp [hb] at hb', fun _ => hst⟩, hsz, hw⟩

/-- Two frames that answer alike for `m`, over outer layers that answer alike
for `m`, answer alike for `m`. -/
theorem lookup_frame_congr {f f' : Frame} {rest rest' : Env}
    (hslot : f'.slotOf? m = f.slotOf? m) (hget : ∀ s, f.slotOf? m = some s → f'.get? a' s = f.get? a s)
    (hextra : f'.extra.get? m = f.extra.get? m) (hrest : lookup a' rest' m = lookup a rest m) :
    lookup a' (.frame f' :: rest') m = lookup a (.frame f :: rest) m := by
  rw [lookup.eq_3, lookup.eq_3, hslot, hextra, hrest]
  cases hs : f.slotOf? m with
  | none => rfl
  | some s => simp only [hget s hs]

/-- An assigned name reads back the value. -/
theorem lookup_assign_self {E E' : Env} {t : Nat} (hE : E.Stacked t) (ht : t ≤ a.size)
    (h : assign a E n v = some (E', a')) : lookup a' E' n = some v := by
  induction E generalizing E' t a' with
  | nil => simp [assign] at h
  | cons layer rest ih =>
    cases layer with
    | scope b =>
      rw [assign_scope] at h
      split at h
      · cases h
        rw [lookup_scope, Bindings.get?_put_self]
      · rename_i hb
        obtain ⟨⟨rest', a₁⟩, hr, he⟩ := Option.map_eq_some_iff.mp h
        cases he
        have hbn : b.get? n = none := by simpa [Bindings.has_eq_isSome] using hb
        rw [lookup_scope, hbn]
        exact ih hE ht hr
    | frame f =>
      obtain ⟨t', ht', hrest, hbase⟩ := hE.frame_rest
      have hf := (stacked_frame.mp hE).1
      by_cases hset : ∃ s, f.slotOf? n = some s ∧ f.slotSet s = true
      · obtain ⟨s, hs, hss⟩ := hset
        rw [assign_frame_set rest hs hss] at h
        cases h
        have hfit : ∀ b, f.base = some b → b + 8 * f.numSlots ≤ a.size := fun b hb => by
          have := (hbase b hb).2
          omega
        exact lookup_frame_set rest (by rw [Frame.slotOf?_put]; exact hs)
          (Frame.get?_put_self (hf.slot_lt hs) hf hfit)
      · have hoff : ∀ s, f.slotOf? n = some s → f.slotSet s = false := fun s hs => by
          simpa using fun h => hset ⟨s, hs, h⟩
        rw [assign_frame_unset rest hoff] at h
        split at h
        · cases h
          rw [lookup_frame_unset (f := { f with extra := f.extra.put n v }) rest hoff,
            Bindings.get?_put_self]
        · rename_i hx
          obtain ⟨⟨rest', a₁⟩, hr, he⟩ := Option.map_eq_some_iff.mp h
          cases he
          have hxn : f.extra.get? n = none := by simpa [Bindings.has_eq_isSome] using hx
          rw [lookup_frame_unset rest' hoff, hxn]
          exact ih hrest (by omega) hr

/-- An assignment leaves the other names. -/
theorem lookup_assign_of_ne {E E' : Env} {t : Nat} (hE : E.Stacked t) (ht : t ≤ a.size)
    (h : assign a E n v = some (E', a')) (hm : m ≠ n) : lookup a' E' m = lookup a E m := by
  induction E generalizing E' t a' with
  | nil => simp [assign] at h
  | cons layer rest ih =>
    cases layer with
    | scope b =>
      rw [assign_scope] at h
      split at h
      · cases h
        rw [lookup_scope, lookup_scope, Bindings.get?_put_of_ne hm]
      · obtain ⟨⟨rest', a₁⟩, hr, he⟩ := Option.map_eq_some_iff.mp h
        cases he
        rw [lookup_scope, lookup_scope, ih hE ht hr]
    | frame f =>
      obtain ⟨t', ht', hrest, hbase⟩ := hE.frame_rest
      have hf := (stacked_frame.mp hE).1
      by_cases hset : ∃ s, f.slotOf? n = some s ∧ f.slotSet s = true
      · -- another slot, and the outer layers below this frame's slots, are untouched
        obtain ⟨s, hs, hss⟩ := hset
        rw [assign_frame_set rest hs hss] at h
        cases h
        apply lookup_frame_congr Frame.slotOf?_put
        · intro s' hs'
          have hne : s' ≠ s := fun he => hm (hf.slot_inj hs' (he ▸ hs))
          exact Frame.get?_put_of_ne hne
        · rw [Frame.put_extra]
        · apply lookup_congr hrest
          intro o ho
          apply Frame.word_put_of_outside (hf.slot_lt hs)
          intro b hb
          have := (hbase b hb).1
          omega
      · have hoff : ∀ s, f.slotOf? n = some s → f.slotSet s = false := fun s hs => by
          simpa using fun h => hset ⟨s, hs, h⟩
        rw [assign_frame_unset rest hoff] at h
        split at h
        · cases h
          exact lookup_frame_congr rfl (fun _ _ => rfl) (Bindings.get?_put_of_ne hm) rfl
        · -- the outer layers take the value below this frame's slots
          obtain ⟨⟨rest', a₁⟩, hr, he⟩ := Option.map_eq_some_iff.mp h
          cases he
          obtain ⟨-, -, hw⟩ := assign_footprint hrest (by omega) hr
          apply lookup_frame_congr rfl _ rfl (ih hrest (by omega) hr)
          intro s hs
          apply Frame.get?_congr
          intro b hb
          have := (hbase b hb).1
          exact hw _ (by omega)

end Env

end HotLoop
