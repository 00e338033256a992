import HotLoop.Proofs.Memory.Frames
/-!
# HotLoop.Proofs.Memory.Slots

What Get reads from the frames of a stacked table (`FrameTable.slot?`).

A store reads back what it stored: a put or an integer put through a live
frame (`slot?_put_self`, `slot?_putInt_self`), an unset (`slot?_unset_self`),
a declaration of a slot name (`slot?_declare_self`), and an assignment, read
back through the same environment (`lookup_assign_self`). Every other slot of
every frame that stays live reads as before (`Stacked.slot?_step`), except
those the command writes (`Writes`): the slot a store names, the slot of a
declared or assigned name in the frames the name is resolved through, and the
slots an exit writes back through the parents of the frames it closes.
-/

namespace HotLoop

namespace Frame

variable {f : Frame} {a : Arena} {s s' : Nat}

theorem slotSet_unset_self : (f.unset s).slotSet s = false := by
  simp only [unset, slotSet, Array.getD_eq_getD_getElem?, Array.set!_eq_setIfInBounds,
    Array.getElem?_setIfInBounds_self]
  split <;> rfl

/-- An unset slot reads as unset. -/
theorem get?_unset_self : (f.unset s).get? a s = none :=
  get?_eq_none_iff.mpr slotSet_unset_self

/-- Unsetting a slot leaves the others. -/
theorem get?_unset_of_ne (h : s' ≠ s) : (f.unset s).get? a s' = f.get? a s' := by
  simp [get?, unset, slotSet, kind, word, Array.getD_eq_getD_getElem?, Array.set!_eq_setIfInBounds,
    Ne.symm h]

/-- Releasing the arena keeps every slot: release only lowers the top. -/
@[simp] theorem get?_release (m : Int) : f.get? (a.release m) s = f.get? a s :=
  get?_congr fun _ _ => Arena.word_release m

end Frame

namespace FrameTable

variable {t : FrameTable} {j k n s : Nat} {fr fk fn : Frame}

/-! ## Environments stored back -/

/-- Storing back the environment seen from `p` unchanged changes nothing. -/
theorem absorb_chain : ∀ (t : FrameTable) (fuel : Nat) (p : Option Nat),
    t.absorb fuel p (t.chain fuel p) = t
  | t, _, none => by simp [chain, absorb]
  | t, 0, some _ => by simp [chain, absorb]
  | t, f + 1, some k => by
    simp only [chain]
    cases hk : t.frames[k]? with
    | none => simp [absorb]
    | some fr =>
      have hset : t.frames.set! k fr = t.frames := by
        apply Array.ext_getElem?
        intro i
        rw [Array.set!_eq_setIfInBounds, Array.getElem?_setIfInBounds]
        split
        · subst_vars
          rw [hk, if_pos (Array.getElem?_eq_some_iff.mp hk).1]
        · rfl
      rw [absorb]
      simp only [hset]
      exact absorb_chain t f _

/-- Reading the environment seen from `p` after storing an environment in
its place gives that environment back. -/
theorem chain_absorb : ∀ {t : FrameTable} {fuel : Nat} {p : Option Nat} {E : Env},
    (t.lineage fuel p).Nodup → (t.chain fuel p).SamePlaces E → (t.absorb fuel p E).chain fuel p = E
  | _, _, none, E, _, h => by
    simp only [chain] at h
    obtain ⟨b, rfl⟩ := samePlaces_scope h
    simp [absorb, chain]
  | _, 0, some _, E, _, h => by
    simp only [chain] at h
    obtain ⟨b, rfl⟩ := samePlaces_scope h
    simp [absorb, chain]
  | t, f + 1, some k, E, hnd, h => by
    simp only [chain] at h
    cases hk : t.frames[k]? with
    | none =>
      rw [hk] at h
      obtain ⟨b, rfl⟩ := samePlaces_scope h
      simp [absorb, chain, hk]
    | some fr =>
      rw [hk] at h
      simp only [lineage, hk] at hnd
      cases h with
      | @cons _ l _ rest hl hrest =>
      cases l with
      | scope => exact absurd hl id
      | frame fr' =>
      -- the frame takes its new record, which the parents' lineage never sees again
      have h₁ := sameFrames_set hk hl
      obtain ⟨hknot, hnd'⟩ := List.nodup_cons.mp hnd
      have hlin := h₁.lineage f (t.parents[k]?.getD none)
      have hrest₁ := (h₁.symm.chain f _).trans hrest
      have hkeep := (absorb_spec hrest₁).2.1 k (by rw [hlin]; exact hknot)
      have hlt : k < t.frames.size := (Array.getElem?_eq_some_iff.mp hk).1
      have ih := chain_absorb (by rw [hlin]; exact hnd') hrest₁
      rw [absorb, chain, hkeep, (absorb_spec hrest₁).1.parents]
      simp only [Array.set!_eq_setIfInBounds, Array.getElem?_setIfInBounds_self, hlt, if_true]
      exact congrArg _ ih

/-- After an environment operation from `p`, the environment seen from `p`
is the operation's result, over the operation's arena. -/
theorem within_env {α : Type} {p : Option Nat} (act : Env → Arena → α × Env × Arena)
    (hnd : (t.lineage (t.frames.size + 1) p).Nodup)
    (h : (t.env p).SamePlaces (act (t.env p) t.manager.arena).2.1) :
    (t.within p act).2.env p = (act (t.env p) t.manager.arena).2.1 ∧
      (t.within p act).2.manager.arena = (act (t.env p) t.manager.arena).2.2 := by
  refine ⟨?_, by rw [(within_spec act h).2.2.1]⟩
  unfold within
  generalize act (t.env p) t.manager.arena = r at h
  obtain ⟨x, E, a⟩ := r
  have h₁ := sameFrames_manager (t := t) { t.manager with arena := a }
  have hsp : (({ t with manager := { t.manager with arena := a } } : FrameTable).chain
      (t.frames.size + 1) p).SamePlaces E := by
    rw [chain_with_manager]
    exact h
  -- storing back keeps the number of frames, so the environment is read with the same fuel
  show (FrameTable.absorb _ _ _ _).chain ((FrameTable.absorb _ _ _ _).frames.size + 1) p = E
  rw [(absorb_spec hsp).1.size]
  exact chain_absorb (by rw [h₁.lineage]; exact hnd) hsp

/-- The environment seen from frame `n` is its frame over the environment
seen from its parent. -/
theorem env_some (hn : t.frames[n]? = some fn) :
    t.env (some n) = .frame fn :: t.chain t.frames.size (t.parents[n]?.getD none) := by
  simp [env, chain, hn]

/-- An environment operation from an open frame that changes only that
frame's layer stores that frame alone. -/
theorem Stacked.within_head {α : Type} (h : t.Stacked) (hn : t.Open n fn)
    (act : Env → Arena → α × Env × Arena) {x : α} {f' : Frame} {a' : Arena}
    (hact : act (t.env (some n)) t.manager.arena =
      (x, .frame f' :: t.chain t.frames.size (t.parents[n]?.getD none), a')) :
    (t.within (some n) act).2 = t.update n (f', a') := by
  -- the parents of `n` come before it, so its lineage passes it once
  have hnot : n ∉ t.lineage t.frames.size (t.parents[n]?.getD none) := by
    have hd : (t.lineage (t.frames.size + 1) (some n)).Pairwise (· > ·) :=
      h.lineage_desc fun q hq => by
        cases hq
        exact hn.1
    simp only [lineage, hn.2] at hd
    exact fun hm => Nat.lt_irrefl n ((List.pairwise_cons.mp hd).1 n hm)
  have hchain := chain_set_of_not_mem (t := { t with manager := { t.manager with arena := a' } })
    (x := f') (by rw [(sameFrames_manager _).lineage]; exact hnot)
  rw [chain_with_manager] at hchain
  unfold FrameTable.within
  rw [hact]
  dsimp only
  rw [absorb, ← hchain, absorb_chain]
  rfl

/-! ## Stores, one command at a time -/

/-- The slots of an open frame fit in the arena. -/
theorem Stacked.fits (h : t.Stacked) (hn : t.Open n fn) :
    ∀ b, fn.base = some b → b + 8 * fn.numSlots ≤ t.manager.arena.size := by
  intro b hb
  have hstop := h.stop_le_top n fn hn
  simp only [Frame.stop, hb] at hstop
  exact hstop.trans h.top_le_size

theorem step_put (hfr : t.frames[n]? = some fn) (hs : s < fn.numSlots) (v : Value) :
    (t.step (.put n s v)).2 = t.update n (fn.put t.manager.arena s v) := by
  simp [FrameTable.step, withSlot, withFrame, hfr, hs]

theorem step_putInt (hfr : t.frames[n]? = some fn) (hs : s < fn.numSlots) (i : Int64) :
    (t.step (.putInt n s i)).2 = t.update n (fn.put t.manager.arena s (.int i)) := by
  simp [FrameTable.step, withSlot, withFrame, hfr, hs, Frame.putInt_eq_put]

theorem step_unset (hfr : t.frames[n]? = some fn) (hs : s < fn.numSlots) :
    (t.step (.unset n s)).2 = { t with frames := t.frames.set! n (fn.unset s) } := by
  simp [FrameTable.step, withSlot, withFrame, hfr, hs]

/-- A declaration of a promoted name through an open frame stores in that
frame's slot of the name, and nowhere else. -/
theorem Stacked.step_declare_slot (h : t.Stacked) (hn : t.Open n fn) {name : String}
    (hs : fn.slotOf? name = some s) (v : Value) :
    (t.step (.declare n name v)).2 = t.update n (fn.put t.manager.arena s v) := by
  simp only [FrameTable.step, withFrame, hn.2]
  apply h.within_head hn
  rw [env_some hn.2]
  simp only [Env.declare, hs]
  rfl

/-- A declaration of any other name through an open frame binds it beside
that frame's slots. -/
theorem Stacked.step_declare_extra (h : t.Stacked) (hn : t.Open n fn) {name : String}
    (hs : fn.slotOf? name = none) (v : Value) :
    (t.step (.declare n name v)).2 =
      t.update n ({ fn with extra := fn.extra.put name v }, t.manager.arena) := by
  simp only [FrameTable.step, withFrame, hn.2]
  apply h.within_head hn
  rw [env_some hn.2]
  simp only [Env.declare, hs]
  rfl

theorem slot?_set_self (hfr : t.frames[n]? = some fn) (f' : Frame) :
    ({ t with frames := t.frames.set! n f' } : FrameTable).slot? n s = f'.get? t.manager.arena s := by
  have hlt := (Array.getElem?_eq_some_iff.mp hfr).1
  simp [slot?, Array.set!_eq_setIfInBounds, hlt]

theorem slot?_set_of_ne (hne : n ≠ k) (f' : Frame) :
    ({ t with frames := t.frames.set! n f' } : FrameTable).slot? k s = t.slot? k s := by
  simp [slot?, Array.set!_eq_setIfInBounds, Array.getElem?_setIfInBounds_ne hne]

theorem slot?_update_self (hfr : t.frames[n]? = some fn) (r : Frame × Arena) :
    (t.update n r).slot? n s = r.1.get? r.2 s := by
  have hlt := (Array.getElem?_eq_some_iff.mp hfr).1
  simp [slot?, update, Array.set!_eq_setIfInBounds, hlt]

/-- A store into an open frame that changes no arena word outside it
changes no slot of another open frame. -/
theorem Stacked.slot?_update_other (h : t.Stacked) (hn : t.Open n fn) (hk : t.Open k fk)
    (hne : n ≠ k) {f' : Frame} {a' : Arena} (hw : ∀ o, fn.Clear o → a'.word o = t.manager.arena.word o) :
    (t.update n (f', a')).slot? k s = t.slot? k s := by
  simp only [slot?, update, Array.set!_eq_setIfInBounds, Array.getElem?_setIfInBounds_ne hne, hk.2,
    Option.bind_some]
  apply Frame.get?_congr_slots (h.sound k fk hk)
  intro b hb s' hs'
  exact hw _ (h.clear hn hk hne hb hs')

/-- A put into a slot of an open frame changes no other slot of an open
frame. -/
theorem Stacked.slot?_update_put (h : t.Stacked) (hn : t.Open n fn) {s' : Nat} (hs' : s' < fn.numSlots)
    (hk : t.Open k fk) (hne : ¬ (n = k ∧ s' = s)) (v : Value) :
    (t.update n (fn.put t.manager.arena s' v)).slot? k s = t.slot? k s := by
  by_cases hnk : n = k
  · subst hnk
    have hss : s' ≠ s := fun e => hne ⟨rfl, e⟩
    rw [slot?_update_self hn.2, Frame.get?_put_of_ne (Ne.symm hss), slot?, hn.2, Option.bind_some]
  · exact h.slot?_update_other hn hk hnk fun o ho => Frame.word_put_of_outside hs' ho

/-- A slot command on a missing frame or slot changes nothing. -/
theorem withSlot_refused (hws : ¬ ∃ fn, t.frames[n]? = some fn ∧ s < fn.numSlots)
    (f : Frame → Reply × FrameTable) : (t.withSlot n s f).2 = t := by
  unfold withSlot withFrame
  split
  · rename_i fn hfn
    dsimp only
    rw [if_neg fun hs => hws ⟨fn, hfn, hs⟩]
  · rfl

/-- An environment operation from an open frame or the global scope that
keeps the environment's frames in place, rewrites at most the slots of the
names `ns`, and changes no arena word outside the environment's frames,
changes no slot of an open frame but those of `ns` in the frames the
environment passes. -/
theorem Stacked.slot?_within {α : Type} (h : t.Stacked) {p : Option Nat}
    (hp : ∀ q, p = some q → q ∈ t.opened) (act : Env → Arena → α × Env × Arena) (ns : String → Prop)
    (hsp : (t.env p).SamePlaces (act (t.env p) t.manager.arena).2.1)
    (hrw : (t.env p).Rewrites ns t.manager.arena (act (t.env p) t.manager.arena).2.2
      (act (t.env p) t.manager.arena).2.1)
    (hwords : ∀ o, (t.env p).Clear o →
      (act (t.env p) t.manager.arena).2.2.word o = t.manager.arena.word o)
    (hk : t.Open k fk)
    (hs : k ∈ t.lineage (t.frames.size + 1) p → ∀ name, ns name → fk.slotOf? name ≠ some s) :
    (t.within p act).2.slot? k s = t.slot? k s := by
  obtain ⟨hsame, hout, hman, -⟩ := within_spec act hsp
  unfold slot?
  rw [hman]
  by_cases hkl : k ∈ t.lineage (t.frames.size + 1) p
  · -- on the lineage only the slots of `ns` are rewritten
    obtain ⟨fk', hfk', hr⟩ := within_rel act (h.lineage_nodup hp) hsp hrw k hkl fk hk.2
    rw [hfk', hk.2, Option.bind_some, Option.bind_some]
    exact hr.reads s fun name hn => hs hkl name hn
  · -- off it, the frame keeps its record and its words
    rw [hout k hkl, hk.2, Option.bind_some, Option.bind_some]
    apply Frame.get?_congr_slots (h.sound k fk hk)
    intro b hb s' hs'
    exact hwords _ (h.env_clear hp hk hkl hb hs')

/-- Opening a frame changes no slot of an open frame: the new frame lies
above the arena's top, and the open ones below it. -/
theorem Stacked.slot?_entered (h : t.Stacked) {l : Loop} {fr : Frame} {m' : Manager}
    (hent : t.manager.Entered l fr m') (hk : t.Open k fk) (p : Option Nat) :
    ({ t with manager := m', frames := t.frames.push fr, parents := t.parents.push p,
              opened := t.frames.size :: t.opened } : FrameTable).slot? k s = t.slot? k s := by
  simp only [slot?, Array.getElem?_push, if_neg (Nat.ne_of_lt (h.lt_size hk.1)), hk.2, Option.bind_some]
  apply Frame.get?_congr_slots (h.sound k fk hk)
  intro b hb s' hs'
  apply hent.words
  have hstop := h.stop_le_top k fk hk
  simp only [Frame.stop, hb] at hstop
  omega

/-- Which slot of frame `k` a command may store into, on a stacked table:
the slot it names, the slot of the name it declares or assigns in the
frames its environment passes, and, for an exit, the slots the closed
frames write their names back to. -/
def Writes (t : FrameTable) (k s : Nat) : Command → Prop
  | .unset n s' | .put n s' _ | .putInt n s' _ => n = k ∧ s' = s
  | .declare n name _ => n = k ∧ ∃ fk ∈ t.frames[k]?, fk.slotOf? name = some s
  | .assign n name _ =>
    k ∈ t.lineage (t.frames.size + 1) (some n) ∧ ∃ fk ∈ t.frames[k]?, fk.slotOf? name = some s
  | .exit n => ∃ j ∈ t.opened, n ≤ j ∧ t.WritesBack j k s
  | _ => False

/-- Stores are isolated: an admitted command changes no slot of a frame
that is open before and after it, except the slots it `Writes`. -/
theorem Stacked.slot?_step (h : t.Stacked) {c : Command} (hc : t.Admits c) (hk : k ∈ t.opened)
    (hk' : k ∈ (t.step c).2.opened) (hw : ¬ t.Writes k s c) : (t.step c).2.slot? k s = t.slot? k s := by
  by_cases hr : ReadOnly c
  · rw [step_readOnly hr]
  obtain ⟨fk, hfk⟩ := h.frame_of_mem hk
  cases c with
  | enter l p =>
    rcases h.step_enter hc with he | ⟨fr, m', -, hent, -, he⟩
    · rw [he]
    · rw [he]
      exact h.slot?_entered hent hfk p
  | exit n =>
    rw [step_exit] at hk' ⊢
    by_cases hn : n ∈ t.opened
    · obtain ⟨fr, hfr⟩ := h.frame_of_mem hn
      obtain ⟨hcl, he⟩ := h.exit_open hfr
      rw [he] at hk' ⊢
      -- `k` stays open, so it lies below `n` and is not among the closed frames
      have hkn : k ∉ t.opened.filter (n ≤ ·) := by
        simp only [List.mem_filter, decide_eq_true_eq] at hk' ⊢
        omega
      have hu := hcl.slots k hk hkn s fun j hj hwb => by
        simp only [List.mem_filter, decide_eq_true_eq] at hj
        exact hw ⟨j, hj.1, hj.2, hwb⟩
      rw [← hu]
      simp only [slot?, Frame.get?_release]
    · rw [h.exit_closed hn]
  | reset => exact absurd hc id
  | stats | «show» _ | global _ | get _ _ | int _ _ | lookup _ _ => exact absurd trivial hr
  | unset n s' =>
    by_cases hws : ∃ fn, t.frames[n]? = some fn ∧ s' < fn.numSlots
    · obtain ⟨fn, hfn, hs'⟩ := hws
      rw [step_unset hfn hs']
      by_cases hnk : n = k
      · subst hnk
        have hss : s' ≠ s := fun e => hw ⟨rfl, e⟩
        rw [slot?_set_self hfn, Frame.get?_unset_of_ne (Ne.symm hss), slot?, hfn, Option.bind_some]
      · exact slot?_set_of_ne hnk _
    · rw [show (t.step (.unset n s')).2 = t from withSlot_refused hws _]
  | put n s' v =>
    by_cases hws : ∃ fn, t.frames[n]? = some fn ∧ s' < fn.numSlots
    · obtain ⟨fn, hfn, hs'⟩ := hws
      rw [step_put hfn hs']
      exact h.slot?_update_put ⟨(h.live_iff n fn hfn).mp (hc fn hfn), hfn⟩ hs' hfk hw v
    · rw [show (t.step (.put n s' v)).2 = t from withSlot_refused hws _]
  | putInt n s' i =>
    by_cases hws : ∃ fn, t.frames[n]? = some fn ∧ s' < fn.numSlots
    · obtain ⟨fn, hfn, hs'⟩ := hws
      rw [step_putInt hfn hs']
      exact h.slot?_update_put ⟨(h.live_iff n fn hfn).mp (hc fn hfn), hfn⟩ hs' hfk hw _
    · rw [show (t.step (.putInt n s' i)).2 = t from withSlot_refused hws _]
  | assign n name v =>
    cases hfn : t.frames[n]? with
    | none => simp only [FrameTable.step, withFrame, hfn]
    | some fn =>
      have hp : ∀ q, some n = some q → q ∈ t.opened := fun q hq => by
        cases hq
        exact (h.live_iff n fn hfn).mp (hc fn hfn)
      have hsound := h.env_sound hp
      simp only [FrameTable.step, withFrame, hfn]
      -- each fact for a bound name, then for an unbound one, which changes nothing
      refine h.slot?_within hp _ (· = name) ?_ ?_ ?_ hfk
          (fun hkl name' hname hslot => hw ⟨hkl, fk, hfk.2, hname ▸ hslot⟩) <;>
        split <;> rename_i heq
      · exact (Env.assign_spec hsound heq).1
      · exact Env.SamePlaces.refl _
      · exact Env.assign_rewrites (h.env_stacked hp) h.top_le_size heq
      · exact (h.env_stacked hp).rewrites_of_agree fun _ _ => rfl
      · exact (Env.assign_spec hsound heq).2.2.2.2
      · exact fun _ _ => rfl
  | declare n name v =>
    cases hfn : t.frames[n]? with
    | none => simp only [FrameTable.step, withFrame, hfn]
    | some fn =>
      have hn : t.Open n fn := ⟨(h.live_iff n fn hfn).mp (hc fn hfn), hfn⟩
      cases hs0 : fn.slotOf? name with
      | some s0 =>
        rw [h.step_declare_slot hn hs0]
        refine h.slot?_update_put hn ((h.sound n fn hn).slot_lt hs0) hfk (fun hns => ?_) v
        obtain ⟨rfl, rfl⟩ := hns
        exact hw ⟨rfl, fn, hfn, hs0⟩
      | none =>
        -- the name is bound beside the slots, which keep their values
        rw [h.step_declare_extra hn hs0]
        by_cases hnk : n = k
        · subst hnk
          rw [slot?_update_self hfn, slot?, hfn, Option.bind_some]
          rfl
        · exact h.slot?_update_other hn hfk hnk fun o _ => rfl

/-! ## Stores read back -/

theorem Stacked.slot?_update_put_self (h : t.Stacked) (hn : t.Open n fn) (hs : s < fn.numSlots)
    (v : Value) : (t.update n (fn.put t.manager.arena s v)).slot? n s = some v := by
  rw [slot?_update_self hn.2]
  exact Frame.get?_put_self hs (h.sound n fn hn) (h.fits hn)

/-- A slot of an open frame reads back the value put into it. -/
theorem Stacked.slot?_put_self (h : t.Stacked) (hn : t.Open n fn) (hs : s < fn.numSlots) (v : Value) :
    (t.step (.put n s v)).2.slot? n s = some v := by
  rw [step_put hn.2 hs]
  exact h.slot?_update_put_self hn hs v

theorem Stacked.slot?_putInt_self (h : t.Stacked) (hn : t.Open n fn) (hs : s < fn.numSlots) (i : Int64) :
    (t.step (.putInt n s i)).2.slot? n s = some (.int i) := by
  rw [step_putInt hn.2 hs]
  exact h.slot?_update_put_self hn hs _

/-- An unset slot reads as not set. -/
theorem slot?_unset_self (hfr : t.frames[n]? = some fn) (hs : s < fn.numSlots) :
    (t.step (.unset n s)).2.slot? n s = none := by
  rw [step_unset hfr hs, slot?_set_self hfr]
  exact Frame.get?_unset_self

/-- Declaring a promoted name stores the value in its slot. -/
theorem Stacked.slot?_declare_self (h : t.Stacked) (hn : t.Open n fn) {name : String}
    (hs : fn.slotOf? name = some s) (v : Value) :
    (t.step (.declare n name v)).2.slot? n s = some v := by
  rw [h.step_declare_slot hn hs]
  exact h.slot?_update_put_self hn ((h.sound n fn hn).slot_lt hs) v

/-- An assignment to a bound name stores the environment and arena the
assignment gives. -/
theorem step_assign_bound (hfr : t.frames[n]? = some fn) {name : String} {v : Value} {E' : Env} {a' : Arena}
    (hA : (t.env (some n)).assign t.manager.arena name v = some (E', a')) :
    t.step (.assign n name v) = (.ok, (t.within (some n) fun _ _ => (true, E', a')).2) := by
  simp only [FrameTable.step, withFrame, hfr, FrameTable.within, hA]
  rfl

/-- After an environment operation from an open frame, a lookup through
the frame reads the environment and arena the operation left. -/
theorem Stacked.lookup_within {α : Type} (h : t.Stacked) (hn : t.Open n fn)
    (act : Env → Arena → α × Env × Arena) {E' : Env} {a' : Arena}
    (hact : (act (t.env (some n)) t.manager.arena).2 = (E', a'))
    (hsp : (t.env (some n)).SamePlaces E') (name : String) :
    ((t.within (some n) act).2.step (.lookup n name)).1 = .found (E'.lookup a' name) := by
  have hp : ∀ q, some n = some q → q ∈ t.opened := fun q hq => by
    cases hq
    exact hn.1
  have hsp' : (t.env (some n)).SamePlaces (act (t.env (some n)) t.manager.arena).2.1 := by
    rw [hact]
    exact hsp
  obtain ⟨henv, harena⟩ := within_env act (h.lineage_nodup hp) hsp'
  obtain ⟨fr', hfr', -⟩ := (within_spec act hsp').1.frames n fn hn.2
  simp only [FrameTable.step, withFrame, hfr', henv, harena, hact]

/-- An accepted assignment through an open frame is what a lookup of the
name through that frame then finds. -/
theorem Stacked.lookup_assign_self (h : t.Stacked) (hn : t.Open n fn) {name : String} {v : Value}
    (hok : (t.step (.assign n name v)).1 = .ok) :
    ((t.step (.assign n name v)).2.step (.lookup n name)).1 = .found (some v) := by
  have hp : ∀ q, some n = some q → q ∈ t.opened := fun q hq => by
    cases hq
    exact hn.1
  cases hA : (t.env (some n)).assign t.manager.arena name v with
  | none =>
    -- an unbound name is refused
    simp [FrameTable.step, withFrame, hn.2, FrameTable.within, hA] at hok
  | some r =>
    obtain ⟨E', a'⟩ := r
    rw [← Env.lookup_assign_self (h.env_stacked hp) h.top_le_size hA, step_assign_bound hn.2 hA]
    exact h.lookup_within hn (fun _ _ => (true, E', a')) rfl (Env.assign_spec (h.env_sound hp) hA).1 name

end FrameTable

end HotLoop
