import HotLoop.Proofs.Memory.Lineage
/-!
# HotLoop.Proofs.Memory.Frames

Loop frames are stacked (`FrameTable.Stacked`): the live frames are the open
ones, listed innermost first with depths counting down to one; an open frame
was opened below the global scope or below an earlier open frame; the slots
of open frames lie in the arena in the order the frames were opened, each
above its own mark and below the next frame's, all below the arena's top;
and the loop counters differ by the depth.

A new table is stacked (`stacked_new`), and so is the table after every
command it admits (`Stacked.step`): anything but a reset, and no store
through, nor a frame entered below, a frame that is no longer open. An enter
pushes a frame at the arena's top or is refused and changes nothing
(`Stacked.step_enter`). An exit of an open frame closes it and every frame
opened after it, innermost first, and releases the arena to its mark
(`Stacked.exit_open`); `Closing` is what the closing fold keeps. The last
section runs the step over every admissible script (`Stacked.run`).
-/

namespace HotLoop

namespace Arena

variable {a a' : Arena} {stop off : Nat}

theorem makeRoom_ceiling (h : a.makeRoom stop = .ok a') : a'.ceiling = a.ceiling := by
  unfold makeRoom at h
  split at h
  · split at h
    · cases h
    · cases h
      rfl
  · cases h
    rfl

@[simp] theorem ceiling_release (m : Int) : (a.release m).ceiling = a.ceiling := by
  unfold release
  split <;> rfl

/-- An allocation moves the top past the bytes it hands out. -/
theorem allocate_top {size align : Int} (h : a.allocate size align = .ok (off, a')) :
    a'.top = off + size.toNat ∧ a'.ceiling = a.ceiling := by
  unfold allocate at h
  split at h
  · cases h
  · dsimp only at h
    split at h
    · cases h
    · rename_i a₁ hroom
      cases h
      exact ⟨rfl, (makeRoom_ceiling hroom : a₁.ceiling = a.ceiling)⟩

end Arena

/-! ## Opening a frame -/

namespace Frame

/-- A frame of loop `l` with all slot tables fresh is sound. -/
theorem sound_fresh {f : Frame} {l : Loop} (hsh : f.shape = l.shape)
    (hk : f.kinds = Array.replicate l.shape.numSlots .nil)
    (hi : f.isSet = Array.replicate l.shape.numSlots false)
    (ha : f.arrays = Array.replicate l.shape.numSlots [])
    (hh : f.heap = Array.replicate l.shape.numSlots 0) : f.Sound := by
  have hn : f.numSlots = l.shape.numSlots := by simp [numSlots, hk]
  refine ⟨fun h => ?_, fun h h' => ?_, by simp [hi, hn], by simp [ha, hn], by simp [hh, hn]⟩
  · rw [slotOf?, hsh] at h
    rw [hn]
    exact Loop.slotOf?_lt h
  · rw [slotOf?, hsh] at h h'
    exact Loop.slotOf?_inj h h'

end Frame

namespace Manager

/-- What opening frame `fr` for loop `l` leaves of manager `m` as `m'`: a
sound, live frame one deeper, marked at the arena's old top and ending at
its new one, with no word below the old top changed. -/
structure Entered (m : Manager) (l : Loop) (fr : Frame) (m' : Manager) : Prop where
  shape : fr.shape = l.shape
  sound : fr.Sound
  live : fr.live = true
  frame_depth : fr.depth = m.depth + 1
  mark : fr.mark = m.arena.top
  mark_le_base : ∀ b, fr.base = some b → fr.mark ≤ b
  top : m'.arena.top = fr.stop
  top_le_size : m'.arena.top ≤ m'.arena.size
  size_le : m.arena.size ≤ m'.arena.size
  ceiling : m'.arena.ceiling = m.arena.ceiling
  words : ∀ o, o + 8 ≤ m.arena.top → m'.arena.word o = m.arena.word o
  depth : m'.depth = m.depth + 1
  maxNestingDepth : m'.maxNestingDepth = m.maxNestingDepth
  entered : m'.stats.loopsEntered = m.stats.loopsEntered + 1
  exited : m'.stats.loopsExited = m.stats.loopsExited

/-- At the nesting limit the manager refuses to open a frame. -/
theorem enter_refused {m : Manager} (l : Loop) (sh : Shape) (E : Env)
    (h : m.maxNestingDepth ≤ m.depth) : ∃ e, m.enter l sh E = .error e := by
  unfold enter
  rw [if_pos h]
  exact ⟨_, rfl⟩

/-- A fresh frame placed at or above the arena's top, with its names copied
in, is what `Entered` says. -/
theorem entered_of {m : Manager} {l : Loop} {E : Env} {f : Frame} {a : Arena} {st : MemoryStats}
    (hsh : f.shape = l.shape) (hk : f.kinds = Array.replicate l.shape.numSlots .nil)
    (hi : f.isSet = Array.replicate l.shape.numSlots false)
    (ha : f.arrays = Array.replicate l.shape.numSlots [])
    (hh : f.heap = Array.replicate l.shape.numSlots 0)
    (hvars : ∀ lv ∈ f.vars, lv.slot < l.shape.numSlots) (hlive : f.live = true)
    (hdepth : f.depth = m.depth + 1) (hmark : f.mark = m.arena.top)
    (hplace : ∀ b, f.base = some b → m.arena.top ≤ b ∧ a.top = b + 8 * f.numSlots)
    (hheap : f.base = none → a.top = m.arena.top) (htop : a.top ≤ a.size)
    (hsize : m.arena.size ≤ a.size) (hceil : a.ceiling = m.arena.ceiling)
    (hwords : ∀ o, o + 8 ≤ m.arena.top → a.word o = m.arena.word o)
    (hentered : st.loopsEntered = m.stats.loopsEntered + 1)
    (hexited : st.loopsExited = m.stats.loopsExited) :
    m.Entered l (copyIn a E f).1 { m with arena := (copyIn a E f).2, stats := st, depth := m.depth + 1 } := by
  have hn : f.numSlots = l.shape.numSlots := by simp [Frame.numSlots, hk]
  obtain ⟨hsp, hsz, htp, hcl, hw⟩ := copyIn_spec (a := a) (E := E) (by rw [hn]; exact hvars)
  have hstop : f.stop = a.top := by
    unfold Frame.stop
    cases hb : f.base with
    | some b => exact (hplace b hb).2.symm
    | none => rw [hheap hb, hmark]
  refine ⟨hsp.shape.trans hsh, hsp.sound (Frame.sound_fresh hsh hk hi ha hh), hsp.live.trans hlive,
    hsp.depth.trans hdepth, hsp.mark.trans hmark, ?_, ?_, ?_, ?_, hcl.trans hceil, fun o ho => ?_, rfl, rfl,
    hentered, hexited⟩
  · -- an arena frame starts at or above the mark
    intro b hb
    rw [hsp.base] at hb
    rw [hsp.mark, hmark]
    exact (hplace b hb).1
  · show (copyIn a E f).2.top = _
    rw [htp, hsp.stop, hstop]
  · show (copyIn a E f).2.top ≤ (copyIn a E f).2.size
    rw [htp, hsz]
    exact htop
  · show m.arena.size ≤ (copyIn a E f).2.size
    rw [hsz]
    exact hsize
  · -- the copies land in the frame's own slots, at or above the old top
    show (copyIn a E f).2.word o = _
    rw [hw o fun b hb => .inl (by have := (hplace b hb).1; omega), hwords o ho]

/-- Below the nesting limit the manager opens a frame, in the arena when
the slots fit and on the heap otherwise. -/
theorem enter_spec {m : Manager} {l : Loop} {E : Env} (htop : m.arena.top ≤ m.arena.size)
    (hpos : 0 < m.arena.size) (hceil : m.arena.ceiling ≤ 2 ^ 64)
    (hdepth : m.depth < m.maxNestingDepth) :
    ∃ fr m', m.enter l l.shape E = .ok (fr, m') ∧ m.Entered l fr m' := by
  unfold enter
  rw [if_neg (by omega)]
  dsimp only
  have hvars : ∀ (mk : Nat → LoopVariable), (∀ s, (mk s).slot = s) →
      ∀ lv ∈ ((List.range l.shape.numSlots).map mk).toArray, lv.slot < l.shape.numSlots := by
    intro mk hmk lv hlv
    simp only [List.mem_toArray, List.mem_map, List.mem_range] at hlv
    obtain ⟨s, hs, rfl⟩ := hlv
    rw [hmk]
    exact hs
  split
  · split
    · -- the slots fit in the arena
      rename_i off a halloc
      obtain ⟨hoff, hfit, hwords⟩ := Arena.allocate_spec halloc hpos hceil htop
      obtain ⟨htop', hceil'⟩ := Arena.allocate_top halloc
      have h8 : (8 * (l.shape.numSlots : Int)).toNat = 8 * l.shape.numSlots := by omega
      rw [h8] at hfit htop'
      exact ⟨_, _, rfl, entered_of rfl rfl rfl rfl rfl (hvars _ fun _ => rfl) rfl rfl rfl
        (fun b hb => by cases hb; exact ⟨hoff, by simpa [Frame.numSlots] using htop'⟩) (fun hb => by cases hb)
        (by rw [htop']; exact hfit) (Arena.size_le_allocate halloc hpos hceil) hceil' hwords rfl rfl⟩
    · -- the arena is full: the slots go to the heap
      exact ⟨_, _, rfl, entered_of rfl rfl rfl rfl rfl (hvars _ fun _ => rfl) rfl rfl rfl
        (fun b hb => by cases hb) (fun _ => rfl) htop le_rfl rfl (fun _ _ => rfl) rfl rfl⟩
  · -- no preallocation: the slots go to the heap
    exact ⟨_, _, rfl, entered_of rfl rfl rfl rfl rfl (hvars _ fun _ => rfl) rfl rfl rfl
      (fun b hb => by cases hb) (fun _ => rfl) htop le_rfl rfl (fun _ _ => rfl) rfl rfl⟩

/-- A frame opened for a shape has the shape's number of slots. -/
theorem numSlots_enter {m m' : Manager} {l : Loop} {sh : Shape} {E : Env} {fr : Frame}
    (h : m.enter l sh E = .ok (fr, m')) : fr.numSlots = sh.numSlots := by
  unfold enter at h
  split at h
  · cases h
  · simp only [Except.ok.injEq, Prod.mk.injEq] at h
    rw [← h.1, (copyIn_spec ?_).1.numSlots]
    · simp [Frame.numSlots]
    · intro lv hlv
      simp only [List.mem_toArray, List.mem_map, List.mem_range] at hlv
      obtain ⟨s, hs, rfl⟩ := hlv
      simpa [Frame.numSlots] using hs

end Manager

/-! ## Stacked frame tables -/

/-- A frame whose slots start at or above its mark ends at or above it. -/
theorem Frame.mark_le_stop {f : Frame} (h : ∀ b, f.base = some b → f.mark ≤ b) : f.mark ≤ f.stop := by
  cases hb : f.base with
  | some b =>
    have := h b hb
    simp only [Frame.stop, hb]
    omega
  | none => simp only [Frame.stop, hb, le_refl]

namespace FrameTable

variable {t t' : FrameTable} {j k : Nat} {fr fj fk : Frame}

/-- Frame `k` exists and has not been exited. -/
def Live (t : FrameTable) (k : Nat) : Prop := ∃ fr, t.frames[k]? = some fr ∧ fr.live = true

/-- Frame `k`, with record `fr`, is on the manager's stack. -/
def Open (t : FrameTable) (k : Nat) (fr : Frame) : Prop := k ∈ t.opened ∧ t.frames[k]? = some fr

/-- The value Get reads from slot `s` of frame `k`. -/
def slot? (t : FrameTable) (k s : Nat) : Option Value :=
  t.frames[k]?.bind fun fr => fr.get? t.manager.arena s

/-- The commands a table admits: anything but a reset, and no store
through, nor a frame entered below, a frame that has been exited. -/
def Admits (t : FrameTable) : Command → Prop
  | .enter _ (some p) | .put p _ _ | .putInt p _ _ | .assign p _ _ | .declare p _ _ =>
    ∀ fr, t.frames[p]? = some fr → fr.live = true
  | .reset => False
  | _ => True

/-- The invariant of a table driven by the commands it admits. -/
structure Stacked (t : FrameTable) : Prop where
  /-- Every frame has its parent recorded. -/
  parents_size : t.parents.size = t.frames.size
  /-- The open frames, innermost first, were opened in that order. -/
  opened_desc : t.opened.Pairwise (· > ·)
  /-- The live frames are the open ones. -/
  live_iff : ∀ k fr, t.frames[k]? = some fr → (fr.live = true ↔ k ∈ t.opened)
  depth : t.opened.length = t.manager.depth
  nesting : t.manager.depth ≤ t.manager.maxNestingDepth
  /-- From the innermost out, the open frames have depths `n, ..., 1`. -/
  depths : ∀ i k, t.opened[i]? = some k → ∃ fr, t.frames[k]? = some fr ∧ fr.depth = t.opened.length - i
  /-- An open frame was opened below the global scope or an earlier frame
  still open. -/
  parent_open : ∀ k ∈ t.opened, ∀ p, t.parents[k]? = some (some p) → p ∈ t.opened ∧ p < k
  sound : ∀ k fr, t.Open k fr → fr.Sound
  mark_le_base : ∀ k fr b, t.Open k fr → fr.base = some b → fr.mark ≤ b
  /-- An open frame ends at or below the mark of every frame opened after it. -/
  below : ∀ j fj k fk, t.Open j fj → t.Open k fk → j < k → fj.stop ≤ fk.mark
  stop_le_top : ∀ k fr, t.Open k fr → fr.stop ≤ t.manager.arena.top
  top_le_size : t.manager.arena.top ≤ t.manager.arena.size
  size_pos : 0 < t.manager.arena.size
  ceiling : t.manager.arena.ceiling ≤ 2 ^ 64
  /-- Every frame entered has been exited or is still open. -/
  counted : t.manager.stats.loopsEntered = t.manager.stats.loopsExited + t.manager.depth

/-- A frame open in a table whose frames stand in the places of another's is
open there too, in the same place. -/
theorem SameFrames.open_of (hs : SameFrames t t') (hop : t'.opened = t.opened) (h : t'.Open k fr) :
    ∃ fr₀, t.Open k fr₀ ∧ fr₀.SamePlace fr := by
  obtain ⟨fr₀, h₀, hp⟩ := hs.symm.frames k fr h.2
  exact ⟨fr₀, ⟨hop ▸ h.1, h₀⟩, hp.symm⟩

namespace Stacked

theorem frame_of_mem (h : t.Stacked) (hk : k ∈ t.opened) : ∃ fr, t.Open k fr := by
  obtain ⟨i, hi⟩ := List.mem_iff_getElem?.mp hk
  obtain ⟨fr, hfr, -⟩ := h.depths i k hi
  exact ⟨fr, hk, hfr⟩

theorem lt_size (h : t.Stacked) (hk : k ∈ t.opened) : k < t.frames.size := by
  obtain ⟨fr, -, hfr⟩ := h.frame_of_mem hk
  exact (Array.getElem?_eq_some_iff.mp hfr).1

/-- A frame is live exactly when it is open. -/
theorem live_iff_mem (h : t.Stacked) : t.Live k ↔ k ∈ t.opened := by
  constructor
  · rintro ⟨fr, hfr, hl⟩
    exact (h.live_iff k fr hfr).mp hl
  · intro hk
    obtain ⟨fr, -, hfr⟩ := h.frame_of_mem hk
    exact ⟨fr, hfr, (h.live_iff k fr hfr).mpr hk⟩

/-- The parent an environment follows from an open frame is open and earlier. -/
theorem parent_of (h : t.Stacked) {p : Nat} (hk : k ∈ t.opened) (hp : t.parents[k]?.getD none = some p) :
    p ∈ t.opened ∧ p < k := by
  apply h.parent_open k hk p
  cases hq : t.parents[k]? with
  | none => rw [hq] at hp; cases hp
  | some q => rw [hq, Option.getD_some] at hp; rw [hp]

/-- The lineage of an open frame is open, and none of it comes after the frame. -/
theorem lineage_open (h : t.Stacked) : ∀ {fuel p}, (∀ k, p = some k → k ∈ t.opened) →
    ∀ j ∈ t.lineage fuel p, j ∈ t.opened ∧ ∀ k, p = some k → j ≤ k
  | _, none, _, j, hj => by simp [lineage] at hj
  | 0, some _, _, j, hj => by simp [lineage] at hj
  | f + 1, some k, hp, j, hj => by
    have hk := hp k rfl
    simp only [lineage] at hj
    cases hfr : t.frames[k]? with
    | none => simp [hfr] at hj
    | some fr =>
      rw [hfr] at hj
      rcases List.mem_cons.mp hj with rfl | hj
      · exact ⟨hk, fun k' hk' => by cases hk'; exact le_rfl⟩
      · -- the rest is the lineage of the parent, opened before `k`
        obtain ⟨hj', hle⟩ := lineage_open h (fun q hq => (h.parent_of hk hq).1) j hj
        refine ⟨hj', fun k' hk' => ?_⟩
        cases hk'
        cases hq : t.parents[k]?.getD none with
        | none =>
          rw [hq] at hj
          simp [lineage] at hj
        | some q =>
          have := hle q hq
          have := (h.parent_of hk hq).2
          omega

/-- The lineage of an open frame goes down to earlier and earlier frames. -/
theorem lineage_desc (h : t.Stacked) : ∀ {fuel p}, (∀ k, p = some k → k ∈ t.opened) →
    (t.lineage fuel p).Pairwise (· > ·)
  | _, none, _ => by simp [lineage]
  | 0, some _, _ => by simp [lineage]
  | f + 1, some k, hp => by
    have hk := hp k rfl
    simp only [lineage]
    cases hfr : t.frames[k]? with
    | none => exact List.Pairwise.nil
    | some fr =>
      have hpar : ∀ q, t.parents[k]?.getD none = some q → q ∈ t.opened := fun q hq =>
        (h.parent_of hk hq).1
      refine List.pairwise_cons.mpr ⟨fun j hj => ?_, lineage_desc h hpar⟩
      cases hq : t.parents[k]?.getD none with
      | none =>
        rw [hq] at hj
        simp [lineage] at hj
      | some q =>
        have := (h.lineage_open hpar j hj).2 q hq
        have := (h.parent_of hk hq).2
        omega

theorem lineage_nodup (h : t.Stacked) {fuel : Nat} {p : Option Nat}
    (hp : ∀ k, p = some k → k ∈ t.opened) : (t.lineage fuel p).Nodup :=
  (h.lineage_desc hp).imp fun hlt => Nat.ne_of_gt hlt

/-- The environment seen from an open frame is stacked below any bound that
its frames end below. -/
theorem chain_stacked (h : t.Stacked) : ∀ {fuel p bound}, (∀ k, p = some k → k ∈ t.opened) →
    (∀ j ∈ t.lineage fuel p, ∀ fr, t.frames[j]? = some fr → fr.stop ≤ bound) →
    (t.chain fuel p).Stacked bound
  | _, none, _, _, _ => by simp [chain, Env.Stacked]
  | 0, some _, _, _, _ => by simp [chain, Env.Stacked]
  | f + 1, some k, bound, hp, hb => by
    have hk := hp k rfl
    simp only [chain]
    cases hfr : t.frames[k]? with
    | none => simp [Env.Stacked]
    | some fr =>
      have hpar : ∀ q, t.parents[k]?.getD none = some q → q ∈ t.opened := fun q hq =>
        (h.parent_of hk hq).1
      have hstop := hb k (by simp [lineage, hfr]) fr hfr
      -- the parents' frames end at or below this frame's mark
      have hrest : ∀ j ∈ t.lineage f (t.parents[k]?.getD none), ∀ fj, t.frames[j]? = some fj →
          fj.stop ≤ fr.mark := by
        intro j hj fj hfj
        obtain ⟨hjo, hle⟩ := h.lineage_open hpar j hj
        have hjk : j < k := by
          cases hq : t.parents[k]?.getD none with
          | none =>
            rw [hq] at hj
            simp [lineage] at hj
          | some q =>
            have := hle q hq
            have := (h.parent_of hk hq).2
            omega
        exact h.below j fj k fr ⟨hjo, hfj⟩ ⟨hk, hfr⟩ hjk
      have hmark : ∀ b, fr.base = some b → fr.mark ≤ b := fun b hb =>
        h.mark_le_base k fr b ⟨hk, hfr⟩ hb
      refine Env.stacked_frame.mpr ⟨h.sound k fr ⟨hk, hfr⟩, fun b hbase => ⟨?_, ?_⟩, fun _ => ?_⟩
      · simpa [Frame.stop, hbase] using hstop
      · exact chain_stacked h hpar fun j hj fj hfj => (hrest j hj fj hfj).trans (hmark b hbase)
      · exact chain_stacked h hpar fun j hj fj hfj =>
          (hrest j hj fj hfj).trans ((Frame.mark_le_stop hmark).trans hstop)

/-- The environment seen from an open frame is stacked below the arena's top. -/
theorem env_stacked (h : t.Stacked) {p : Option Nat} (hp : ∀ k, p = some k → k ∈ t.opened) :
    (t.env p).Stacked t.manager.arena.top :=
  h.chain_stacked hp fun j hj fr hfr => h.stop_le_top j fr ⟨(h.lineage_open hp j hj).1, hfr⟩

/-- The frames of the environment seen from an open frame are sound. -/
theorem env_sound (h : t.Stacked) {p : Option Nat} (hp : ∀ k, p = some k → k ∈ t.opened) :
    (t.env p).Sound := by
  intro f hf
  obtain ⟨j, hj, hjf⟩ := mem_chain hf
  exact h.sound j f ⟨(h.lineage_open hp j hj).1, hjf⟩

/-- Distinct open frames have disjoint slots. -/
theorem clear (h : t.Stacked) (hj : t.Open j fj) (hk : t.Open k fk) (hne : j ≠ k) {b s : Nat}
    (hb : fk.base = some b) (hs : s < fk.numSlots) : fj.Clear (b + 8 * s) := by
  intro c hc
  have hstopj : fj.stop = c + 8 * fj.numSlots := by simp [Frame.stop, hc]
  have hstopk : fk.stop = b + 8 * fk.numSlots := by simp [Frame.stop, hb]
  rcases Nat.lt_or_gt_of_ne hne with hlt | hlt
  · -- frame `j` ends below frame `k`'s mark
    have := h.below j fj k fk hj hk hlt
    have := h.mark_le_base k fk b hk hb
    omega
  · -- frame `k` ends below frame `j`'s mark
    have := h.below k fk j fj hk hj hlt
    have := h.mark_le_base j fj c hj hc
    omega

/-- An open frame outside the lineage of `p` shares no slot with the
environment seen from `p`. -/
theorem env_clear (h : t.Stacked) {p : Option Nat} (hp : ∀ k, p = some k → k ∈ t.opened)
    (hk : t.Open k fk) (hout : k ∉ t.lineage (t.frames.size + 1) p) {b s : Nat}
    (hb : fk.base = some b) (hs : s < fk.numSlots) : (t.env p).Clear (b + 8 * s) := by
  intro f hf
  obtain ⟨j, hj, hjf⟩ := mem_chain hf
  exact h.clear ⟨(h.lineage_open hp j hj).1, hjf⟩ hk (fun e => hout (e ▸ hj)) hb hs

/-- Frames kept in their places, with the stack, the counters and the
arena's top, size and ceiling, keep a table stacked. -/
theorem of_sameFrames (h : t.Stacked) (hs : SameFrames t t') (hop : t'.opened = t.opened)
    (hm : t'.manager = { t.manager with arena := t'.manager.arena })
    (htop : t'.manager.arena.top = t.manager.arena.top)
    (hsize : t'.manager.arena.size = t.manager.arena.size)
    (hceil : t'.manager.arena.ceiling = t.manager.arena.ceiling) : t'.Stacked where
  parents_size := by rw [hs.parents, hs.size]; exact h.parents_size
  opened_desc := hop ▸ h.opened_desc
  live_iff k fr hfr := by
    obtain ⟨fr₀, h₀, hp⟩ := hs.symm.frames k fr hfr
    rw [← hp.live, hop]
    exact h.live_iff k fr₀ h₀
  depth := by rw [hop, hm]; exact h.depth
  nesting := by rw [hm]; exact h.nesting
  depths i k hik := by
    rw [hop] at hik ⊢
    obtain ⟨fr₀, h₀, hd⟩ := h.depths i k hik
    obtain ⟨fr, hfr, hp⟩ := hs.frames _ fr₀ h₀
    exact ⟨fr, hfr, hp.depth.trans hd⟩
  parent_open k hk p hpk := by
    rw [hop] at hk ⊢
    rw [hs.parents] at hpk
    exact h.parent_open k hk p hpk
  sound k fr hk := by
    obtain ⟨fr₀, h₀, hp⟩ := hs.open_of hop hk
    exact hp.sound (h.sound k fr₀ h₀)
  mark_le_base k fr b hk hb := by
    obtain ⟨fr₀, h₀, hp⟩ := hs.open_of hop hk
    rw [hp.base] at hb
    rw [hp.mark]
    exact h.mark_le_base k fr₀ b h₀ hb
  below j fj k fk hj hk hlt := by
    obtain ⟨fj₀, hj₀, hpj⟩ := hs.open_of hop hj
    obtain ⟨fk₀, hk₀, hpk⟩ := hs.open_of hop hk
    rw [hpj.stop, hpk.mark]
    exact h.below j fj₀ k fk₀ hj₀ hk₀ hlt
  stop_le_top k fr hk := by
    obtain ⟨fr₀, h₀, hp⟩ := hs.open_of hop hk
    rw [hp.stop, htop]
    exact h.stop_le_top k fr₀ h₀
  top_le_size := by rw [htop, hsize]; exact h.top_le_size
  size_pos := by rw [hsize]; exact h.size_pos
  ceiling := by rw [hceil]; exact h.ceiling
  counted := by rw [hm]; exact h.counted

/-- Opening a frame below the global scope or an open frame, within the
nesting limit, keeps a table stacked. -/
theorem entered {l : Loop} {m' : Manager} {p : Option Nat} (h : t.Stacked)
    (hdepth : t.manager.depth < t.manager.maxNestingDepth) (he : t.manager.Entered l fr m')
    (hp : ∀ q, p = some q → q ∈ t.opened) :
    ({ t with manager := m', frames := t.frames.push fr, parents := t.parents.push p,
              opened := t.frames.size :: t.opened } : FrameTable).Stacked := by
  have hold : ∀ k ∈ t.opened, (t.frames.push fr)[k]? = t.frames[k]? := fun k hk => by
    rw [Array.getElem?_push, if_neg (Nat.ne_of_lt (h.lt_size hk))]
  -- an open frame of the new table is the new frame or an open frame of the old one
  have hopen : ∀ k fk, k ∈ t.frames.size :: t.opened → (t.frames.push fr)[k]? = some fk →
      (k = t.frames.size ∧ fk = fr) ∨ t.Open k fk := by
    intro k fk hk hfk
    rcases List.mem_cons.mp hk with rfl | hk
    · rw [Array.getElem?_push_size] at hfk
      exact .inl ⟨rfl, (Option.some.inj hfk).symm⟩
    · rw [hold k hk] at hfk
      exact .inr ⟨hk, hfk⟩
  have hstop : fr.stop = m'.arena.top := he.top.symm
  have hmark : t.manager.arena.top ≤ fr.stop := he.mark ▸ Frame.mark_le_stop he.mark_le_base
  constructor
  case parents_size => simp [h.parents_size]
  case opened_desc => exact List.pairwise_cons.mpr ⟨fun k hk => h.lt_size hk, h.opened_desc⟩
  case live_iff =>
    intro k fk hfk
    by_cases hk : k = t.frames.size
    · subst hk
      rw [Array.getElem?_push_size] at hfk
      cases hfk
      simp [he.live]
    · rw [Array.getElem?_push, if_neg hk] at hfk
      rw [h.live_iff k fk hfk]
      simp [hk]
  case depth => simp [h.depth, he.depth]
  case nesting => rw [he.depth, he.maxNestingDepth]; omega
  case depths =>
    intro i k hik
    cases i with
    | zero =>
      cases hik
      exact ⟨fr, by simp, by simp [he.frame_depth, h.depth]⟩
    | succ i =>
      rw [List.getElem?_cons_succ] at hik
      obtain ⟨fk, hfk, hd⟩ := h.depths i k hik
      refine ⟨fk, by rw [hold k (List.mem_of_getElem? hik)]; exact hfk, ?_⟩
      simp [hd]
  case parent_open =>
    intro k hk q hq
    rcases List.mem_cons.mp hk with rfl | hk
    · rw [← h.parents_size, Array.getElem?_push_size] at hq
      cases hq
      exact ⟨List.mem_cons_of_mem _ (hp q rfl), h.lt_size (hp q rfl)⟩
    · have hlt : k < t.parents.size := h.parents_size ▸ h.lt_size hk
      rw [Array.getElem?_push, if_neg (Nat.ne_of_lt hlt)] at hq
      obtain ⟨hq', hqk⟩ := h.parent_open k hk q hq
      exact ⟨List.mem_cons_of_mem _ hq', hqk⟩
  case sound =>
    rintro k fk ⟨hk, hfk⟩
    rcases hopen k fk hk hfk with ⟨-, rfl⟩ | hk
    · exact he.sound
    · exact h.sound k fk hk
  case mark_le_base =>
    rintro k fk b ⟨hk, hfk⟩ hb
    rcases hopen k fk hk hfk with ⟨-, rfl⟩ | hk
    · exact he.mark_le_base b hb
    · exact h.mark_le_base k fk b hk hb
  case below =>
    rintro j fj k fk ⟨hj, hfj⟩ ⟨hk, hfk⟩ hjk
    rcases hopen j fj hj hfj with ⟨rfl, -⟩ | hjo
    · -- the new frame comes after every other
      rcases hopen k fk hk hfk with ⟨rfl, -⟩ | hko
      · omega
      · have := h.lt_size hko.1
        omega
    · rcases hopen k fk hk hfk with ⟨-, rfl⟩ | hko
      · rw [he.mark]
        exact h.stop_le_top j fj hjo
      · exact h.below j fj k fk hjo hko hjk
  case stop_le_top =>
    rintro k fk ⟨hk, hfk⟩
    rcases hopen k fk hk hfk with ⟨-, rfl⟩ | hk
    · exact hstop.le
    · exact (h.stop_le_top k fk hk).trans (hmark.trans hstop.le)
  case top_le_size => exact he.top_le_size
  case size_pos => exact lt_of_lt_of_le h.size_pos he.size_le
  case ceiling => rw [he.ceiling]; exact h.ceiling
  case counted => rw [he.entered, he.exited, he.depth, h.counted]; omega

end Stacked

/-- A fresh table over a manager of word-sized options is stacked. -/
theorem stacked_new (o : MemoryOptions) (g : Bindings) (hsize : o.arenaSize < 2 ^ 63)
    (hceil : o.arenaCeiling < 2 ^ 63) : ({ manager := Manager.new o, globals := g } : FrameTable).Stacked where
  parents_size := rfl
  opened_desc := List.Pairwise.nil
  live_iff k fr hfr := by simp at hfr
  depth := rfl
  nesting := Nat.zero_le _
  depths i k hik := by simp at hik
  parent_open k hk := absurd hk List.not_mem_nil
  sound k fr hk := absurd hk.1 List.not_mem_nil
  mark_le_base k fr b hk := absurd hk.1 List.not_mem_nil
  below j fj k fk hj := absurd hj.1 List.not_mem_nil
  stop_le_top k fr hk := absurd hk.1 List.not_mem_nil
  top_le_size := Nat.zero_le _
  size_pos := by
    simp only [Manager.new, Arena.new, Arena.size, ByteArray.size, Array.size_replicate]
    split
    · simp [Arena.defaultSize]
    · omega
  ceiling := by
    simp only [Manager.new, Arena.new]
    split_ifs <;> simp [Arena.defaultSize, Arena.defaultCeiling] <;> omega
  counted := rfl

/-! ## Closing frames -/

/-- The table with frames `ks` marked exited. -/
def kill (t : FrameTable) (ks : List Nat) : FrameTable :=
  { t with frames := ks.foldl (fun fs k => fs.modify k fun f => { f with live := false }) t.frames }

@[simp] theorem kill_parents (ks : List Nat) : (t.kill ks).parents = t.parents := rfl

@[simp] theorem kill_globals (ks : List Nat) : (t.kill ks).globals = t.globals := rfl

theorem kill_frames (ks : List Nat) (j : Nat) :
    (t.kill ks).frames[j]? = t.frames[j]?.map fun f => if j ∈ ks then { f with live := false } else f := by
  unfold kill
  suffices ∀ fs : Array Frame,
      (ks.foldl (fun fs k => fs.modify k fun f => { f with live := false }) fs)[j]? =
        fs[j]?.map fun f => if j ∈ ks then { f with live := false } else f from this t.frames
  induction ks with
  | nil => intro fs; simp
  | cons k ks ih =>
    intro fs
    rw [List.foldl_cons, ih, Array.getElem?_modify]
    by_cases hkj : k = j
    · subst hkj
      cases fs[k]? <;> simp
    · simp [hkj, Ne.symm hkj]

theorem kill_size (ks : List Nat) : (t.kill ks).frames.size = t.frames.size := by
  unfold kill
  suffices ∀ fs : Array Frame,
      (ks.foldl (fun fs k => fs.modify k fun f => { f with live := false }) fs).size = fs.size from
    this t.frames
  induction ks with
  | nil => intro fs; rfl
  | cons k ks ih => intro fs; rw [List.foldl_cons, ih, Array.size_modify]

theorem kill_append (ks ks' : List Nat) : t.kill (ks ++ ks') = (t.kill ks).kill ks' := by
  simp [kill, List.foldl_append]

theorem lineage_kill (ks : List Nat) : ∀ fuel p, (t.kill ks).lineage fuel p = t.lineage fuel p
  | _, none => by simp [lineage]
  | 0, some _ => by simp [lineage]
  | f + 1, some k => by
    simp only [lineage, kill_frames, kill_parents, lineage_kill ks f]
    cases t.frames[k]? <;> rfl

/-- Marking frames outside the lineage of `p` exited leaves what `p` sees. -/
theorem chain_kill {ks : List Nat} :
    ∀ {fuel p}, (∀ j ∈ t.lineage fuel p, j ∉ ks) → (t.kill ks).chain fuel p = t.chain fuel p
  | _, none, _ => by simp [chain]
  | 0, some _, _ => by simp [chain]
  | f + 1, some k, h => by
    simp only [chain, kill_frames, kill_parents, kill_globals]
    cases hk : t.frames[k]? with
    | none => rfl
    | some fr =>
      have hkn : k ∉ ks := h k (by simp [lineage, hk])
      simp only [Option.map_some, hkn, if_false]
      rw [chain_kill fun j hj => h j (by simp [lineage, hk, hj])]

theorem SameFrames.kill (h : SameFrames t t') (ks : List Nat) :
    SameFrames (t.kill ks) (t'.kill ks) := by
  refine ⟨h.parents, by rw [kill_size, kill_size, h.size], fun k fr hk => ?_⟩
  rw [kill_frames] at hk
  obtain ⟨fr₀, h₀, rfl⟩ := Option.map_eq_some_iff.mp hk
  obtain ⟨fr₁, h₁, hp⟩ := h.frames k fr₀ h₀
  refine ⟨_, by rw [kill_frames, h₁]; rfl, ?_⟩
  by_cases hm : k ∈ ks
  · simp only [hm, if_true]
    exact ⟨hp.shape, hp.vars, hp.base, hp.numSlots, hp.mark, hp.depth, rfl, hp.isSet_size,
      hp.arrays_size, hp.heap_size⟩
  · simp only [hm, if_false]
    exact hp

/-- Slot `s` of frame `k` is the slot of a name that frame `j` copied in,
and `k` lies on the environment `j` was opened in: closing `j` may write it
back. -/
def WritesBack (t : FrameTable) (j k s : Nat) : Prop :=
  k ∈ t.lineage (t.frames.size + 1) (t.parents[j]?.getD none) ∧
    ∃ fj ∈ t.frames[j]?, ∃ lv ∈ fj.vars, lv.declared = false ∧
      ∃ fk ∈ t.frames[k]?, fk.slotOf? lv.name = some s

/-- What closing the frames `P` one by one leaves of `t`: the frames in their
places with `P` exited, the stack, depth and arena's extent as they were,
one more exit counted per frame, and every slot of the other open frames as
it was unless a closed frame wrote it back. -/
structure Closing (t : FrameTable) (P : List Nat) (u : FrameTable) : Prop where
  same : SameFrames (t.kill P) u
  opened : u.opened = t.opened
  depth : u.manager.depth = t.manager.depth
  maxNestingDepth : u.manager.maxNestingDepth = t.manager.maxNestingDepth
  entered : u.manager.stats.loopsEntered = t.manager.stats.loopsEntered
  exited : u.manager.stats.loopsExited = t.manager.stats.loopsExited + P.length
  top : u.manager.arena.top = t.manager.arena.top
  size : u.manager.arena.size = t.manager.arena.size
  ceiling : u.manager.arena.ceiling = t.manager.arena.ceiling
  slots : ∀ k ∈ t.opened, k ∉ P → ∀ s, (∀ j ∈ P, ¬ t.WritesBack j k s) → u.slot? k s = t.slot? k s

theorem Closing.refl (t : FrameTable) : Closing t [] t where
  same := SameFrames.refl t
  opened := rfl
  depth := rfl
  maxNestingDepth := rfl
  entered := rfl
  exited := rfl
  top := rfl
  size := rfl
  ceiling := rfl
  slots _ _ _ _ _ := rfl

/-- A frame that the frames being closed do not reach sees, from its parent,
what it saw before they closed. -/
theorem Closing.env (h : t.Stacked) (hc : Closing t P u) (hj : j ∈ t.opened)
    (hP : ∀ i ∈ P, j < i) :
    u.lineage (u.frames.size + 1) (t.parents[j]?.getD none) =
        t.lineage (t.frames.size + 1) (t.parents[j]?.getD none) ∧
      (t.env (t.parents[j]?.getD none)).SamePlaces (u.env (t.parents[j]?.getD none)) := by
  have hsize : u.frames.size = t.frames.size := by rw [hc.same.size, kill_size]
  have hp : ∀ q, t.parents[j]?.getD none = some q → q ∈ t.opened := fun q hq => (h.parent_of hj hq).1
  -- the parent's lineage lies before `j`, so no frame of it is being closed
  have hout : ∀ i ∈ t.lineage (t.frames.size + 1) (t.parents[j]?.getD none), i ∉ P := by
    intro i hi hiP
    have hle := (h.lineage_open hp i hi).2
    cases hq : t.parents[j]?.getD none with
    | none =>
      rw [hq] at hi
      simp [lineage] at hi
    | some q =>
      have := hle q hq
      have := (h.parent_of hj hq).2
      have := hP i hiP
      omega
  refine ⟨by rw [hsize, hc.same.lineage, lineage_kill], ?_⟩
  unfold FrameTable.env
  rw [hsize, ← chain_kill hout]
  exact hc.same.chain _ _

/-- Closing frame `j`: its copied names written back through its parent,
then the frame marked exited and the exit counted. -/
theorem close_eq (hj : t.frames[j]? = some fr) :
    (t.close j).1 =
      let w := (t.within (t.parents[j]?.getD none) fun env a =>
        ((Manager.writeBack a env fr).2.2, (Manager.writeBack a env fr).1,
          (Manager.writeBack a env fr).2.1)).2
      { w with frames := w.frames.modify j fun f => { f with live := false },
               manager := { w.manager with
                 stats := { w.manager.stats with loopsExited := w.manager.stats.loopsExited + 1 } } } := by
  unfold close
  rw [hj]

/-- Closing one more open frame, earlier than those already closed, extends
what closing leaves. -/
theorem Closing.close (h : t.Stacked) (hc : Closing t P u) (hj : j ∈ t.opened)
    (hP : ∀ i ∈ P, j < i) : Closing t (P ++ [j]) (u.close j).1 := by
  obtain ⟨fj, -, hfj⟩ := h.frame_of_mem hj
  have hjP : j ∉ P := fun hm => Nat.lt_irrefl j (hP j hm)
  -- frame `j` is still in place
  obtain ⟨fj', hfj', hpj⟩ := hc.same.frames j fj (by rw [kill_frames, hfj]; simp [hjP])
  obtain ⟨hlin, henv⟩ := hc.env h hj hP
  have hpar : u.parents[j]?.getD none = t.parents[j]?.getD none := by
    rw [hc.same.parents, kill_parents]
  have hp : ∀ q, t.parents[j]?.getD none = some q → q ∈ t.opened := fun q hq =>
    (h.parent_of hj hq).1
  have hstk : (u.env (t.parents[j]?.getD none)).Stacked u.manager.arena.top := by
    rw [hc.top]
    exact Env.Stacked.of_samePlaces henv (h.env_stacked hp)
  have htop : u.manager.arena.top ≤ u.manager.arena.size := by
    rw [hc.top, hc.size]
    exact h.top_le_size
  obtain ⟨hsp, hsz, htp, hcl, hwords⟩ :=
    Manager.writeBack_spec (a := u.manager.arena) (f := fj') (henv.sound (h.env_sound hp))
  have hrw := Manager.writeBack_rewrites (f := fj') hstk htop
  rw [close_eq hfj', hpar]
  obtain ⟨hsame, hout, hman, hop⟩ := within_spec (t := u) (p := t.parents[j]?.getD none)
    (fun env a => ((Manager.writeBack a env fj').2.2, (Manager.writeBack a env fj').1,
      (Manager.writeBack a env fj').2.1)) hsp
  have hrel := within_rel (t := u) (p := t.parents[j]?.getD none)
    (fun env a => ((Manager.writeBack a env fj').2.2, (Manager.writeBack a env fj').1,
      (Manager.writeBack a env fj').2.1)) (by rw [hlin]; exact h.lineage_nodup hp) hsp hrw
  generalize (u.within (t.parents[j]?.getD none) fun env a =>
    ((Manager.writeBack a env fj').2.2, (Manager.writeBack a env fj').1,
      (Manager.writeBack a env fj').2.1)).2 = w at hsame hout hman hop hrel
  dsimp only
  constructor
  case same =>
    rw [kill_append]
    exact ((hc.same.trans hsame).kill [j]).trans (sameFrames_manager _)
  case opened => rw [hop, hc.opened]
  case depth => rw [hman, hc.depth]
  case maxNestingDepth => rw [hman, hc.maxNestingDepth]
  case entered => rw [hman, hc.entered]
  case exited => simp [hman, hc.exited]; omega
  case top => rw [hman]; exact htp.trans hc.top
  case size => rw [hman]; exact hsz.trans hc.size
  case ceiling => rw [hman]; exact hcl.trans hc.ceiling
  case slots =>
    intro k hk hkP s hws
    simp only [List.mem_append, List.mem_singleton, not_or] at hkP
    have hws' : ∀ i ∈ P, ¬ t.WritesBack i k s := fun i hi => hws i (List.mem_append_left _ hi)
    have hwj : ¬ t.WritesBack j k s := hws j (List.mem_append_right _ (List.mem_singleton_self j))
    obtain ⟨fk, -, hfk⟩ := h.frame_of_mem hk
    obtain ⟨fk', hfk', hpk⟩ := hc.same.frames k fk (by rw [kill_frames, hfk]; simp [hkP.1])
    rw [← hc.slots k hk hkP.1 s hws']
    -- marking `j` exited leaves frame `k`
    have hmod : (w.frames.modify j fun f => { f with live := false })[k]? = w.frames[k]? := by
      rw [Array.getElem?_modify, if_neg (Ne.symm hkP.2)]
    simp only [slot?, hmod, hman]
    by_cases hkl : k ∈ u.lineage (u.frames.size + 1) (t.parents[j]?.getD none)
    · -- on the parent's lineage only the slots of copied names are written back
      obtain ⟨fk'', hfk'', hr⟩ := hrel k hkl fk' hfk'
      rw [hfk'', hfk', Option.bind_some, Option.bind_some]
      refine hr.reads s ?_
      intro n hcopied hs
      obtain ⟨lv, hlv, hdecl, hn⟩ := hcopied
      refine hwj ⟨hlin ▸ hkl, fj, hfj, lv, hpj.vars ▸ hlv, hdecl, fk, hfk, ?_⟩
      rw [← hpk.slotOf?, hn]
      exact hs
    · -- off it, the write-back touches no word of frame `k`
      rw [hout k hkl, hfk', Option.bind_some, Option.bind_some]
      apply Frame.get?_congr_slots (hpk.sound (h.sound k fk ⟨hk, hfk⟩))
      intro b hb s' hs'
      rw [hpk.base] at hb
      rw [hpk.numSlots] at hs'
      exact hwords _ (henv.clear (h.env_clear hp ⟨hk, hfk⟩ (hlin ▸ hkl) hb hs'))

/-- Closing open frames one by one, each earlier than the one before, extends
what closing leaves. -/
theorem Closing.foldl (h : t.Stacked) {f : FrameTable × Option Error → Nat → FrameTable × Option Error}
    (hf : ∀ ue k, (f ue k).1 = (ue.1.close k).1) :
    ∀ (L P : List Nat) (ue : FrameTable × Option Error), Closing t P ue.1 →
      (∀ j ∈ L, j ∈ t.opened) → (∀ i ∈ P, ∀ j ∈ L, j < i) → L.Pairwise (· > ·) →
      Closing t (P ++ L) (L.foldl f ue).1
  | [], P, ue, hc, _, _, _ => by simpa using hc
  | j :: L, P, ue, hc, hL, hPL, hdesc => by
    obtain ⟨hjL, hL'⟩ := List.pairwise_cons.mp hdesc
    have hc' : Closing t (P ++ [j]) (f ue j).1 := by
      rw [hf]
      exact hc.close h (hL j List.mem_cons_self) fun i hi => hPL i hi j List.mem_cons_self
    have hrest := Closing.foldl h hf L (P ++ [j]) (f ue j) hc'
      (fun j' hj' => hL j' (List.mem_cons_of_mem _ hj')) (fun i hi j' hj' => ?_) hL'
    · simpa using hrest
    · rcases List.mem_append.mp hi with hi | hi
      · exact hPL i hi j' (List.mem_cons_of_mem _ hj')
      · rw [List.mem_singleton.mp hi]
        exact hjL j' hj'

/-- In a stack listed innermost first, the frames at and above `n` come
before the frames below it. -/
theorem filter_append_filter {l : List Nat} (hl : l.Pairwise (· > ·)) (n : Nat) :
    l.filter (n ≤ ·) ++ l.filter (· < n) = l := by
  induction l with
  | nil => rfl
  | cons x xs ih =>
    obtain ⟨hx, hxs⟩ := List.pairwise_cons.mp hl
    by_cases hnx : n ≤ x
    · simp [hnx, ih hxs]
    · -- everything from `x` down lies below `n`
      have hlow : ∀ y ∈ xs, y < n := fun y hy => by have := hx y hy; omega
      have h₁ : xs.filter (n ≤ ·) = [] := List.filter_eq_nil_iff.mpr fun y hy => by
        simpa using hlow y hy
      have h₂ : xs.filter (· < n) = xs := List.filter_eq_self.mpr fun y hy => by simpa using hlow y hy
      simp [hnx, h₁, h₂, Nat.lt_of_not_le hnx]

/-- Exit of an open frame `n` closes, innermost first, the frames opened
since `n` and `n` itself: those at and above it on the stack. -/
theorem takeWhile_ne_append {l : List Nat} (hl : l.Pairwise (· > ·)) {n : Nat} (hn : n ∈ l) :
    l.takeWhile (· ≠ n) ++ [n] = l.filter (n ≤ ·) ∧
      l.drop (l.takeWhile (· ≠ n) ++ [n]).length = l.filter (· < n) := by
  induction l with
  | nil => simp at hn
  | cons x xs ih =>
    obtain ⟨hx, hxs⟩ := List.pairwise_cons.mp hl
    by_cases hxn : x = n
    · subst hxn
      have h₁ : xs.filter (x ≤ ·) = [] := List.filter_eq_nil_iff.mpr fun y hy => by
        simpa using hx y hy
      have h₂ : xs.filter (· < x) = xs := List.filter_eq_self.mpr fun y hy => by simpa using hx y hy
      simp [h₁, h₂]
    · have hn' : n ∈ xs := (List.mem_cons.mp hn).resolve_left (Ne.symm hxn)
      have hnx : n < x := hx n hn'
      obtain ⟨h₁, h₂⟩ := ih hxs hn'
      refine ⟨?_, ?_⟩
      · simp [hxn, hnx.le, ← h₁]
      · simp [hxn, Nat.not_lt_of_gt hnx, ← h₂]

/-- The tables an exit's fold passes through are those of closing its frames
one by one. -/
theorem foldl_close_fst : ∀ (L : List Nat) (x : FrameTable × Option Error),
    (L.foldl (fun x k => ((x.1.close k).1, x.2 <|> (x.1.close k).2)) x).1 =
      L.foldl (fun u k => (u.close k).1) x.1
  | [], _ => rfl
  | _ :: L, _ => foldl_close_fst L _

/-- Exit of an open frame `n`: the frames at and above it on the stack are
closed one by one, innermost first; the stack keeps the frames below it, and
the arena goes back to `n`'s mark. -/
theorem Stacked.exit_open (h : t.Stacked) {n : Nat} (hn : t.Open n fr) :
    let u := (t.opened.filter (n ≤ ·)).foldl (fun u k => (u.close k).1) t
    Closing t (t.opened.filter (n ≤ ·)) u ∧
      (t.exit n).1 =
        { u with
          opened := t.opened.filter (· < n)
          manager := { u.manager with
            arena := u.manager.arena.release fr.mark, depth := (t.opened.filter (· < n)).length } } := by
  obtain ⟨habove, hrest⟩ := takeWhile_ne_append h.opened_desc hn.1
  rw [habove] at hrest
  have hlive : fr.live = true := (h.live_iff n fr hn.2).mpr hn.1
  have hcl := Closing.foldl h (f := fun x k => ((x.1.close k).1, x.2 <|> (x.1.close k).2))
    (fun _ _ => rfl) (t.opened.filter (n ≤ ·)) [] (t, none) (Closing.refl t)
    (fun j hj => List.mem_of_mem_filter hj) (fun _ hi => absurd hi List.not_mem_nil)
    (h.opened_desc.filter _)
  simp only [List.nil_append, foldl_close_fst] at hcl
  refine ⟨hcl, ?_⟩
  unfold exit
  rw [hn.2]
  dsimp only
  rw [if_neg (by simp [hlive]), if_neg (by simp [hn.1]), habove, foldl_close_fst, hcl.opened, hrest]

/-- The table an exit of an open frame `n` leaves is stacked: the frames at
and above `n` are exited, those below it stay open, and the arena's top is
back at `n`'s mark. -/
theorem Stacked.exited {u : FrameTable} (h : t.Stacked) {n : Nat} (hn : t.Open n fr)
    (hc : Closing t (t.opened.filter (n ≤ ·)) u) :
    ({ u with
       opened := t.opened.filter (· < n)
       manager := { u.manager with
         arena := u.manager.arena.release fr.mark,
         depth := (t.opened.filter (· < n)).length } } : FrameTable).Stacked := by
  have hsplit := filter_append_filter h.opened_desc n
  have hmark : fr.mark ≤ t.manager.arena.top :=
    (Frame.mark_le_stop fun b hb => h.mark_le_base n fr b hn hb).trans (h.stop_le_top n fr hn)
  have htop : (u.manager.arena.release fr.mark).top = fr.mark :=
    Arena.top_release_of_le (by rw [hc.top]; exact hmark)
  -- every frame of `u` is a frame of `t`, exited if it was at or above `n`
  have hframe : ∀ k fk, u.frames[k]? = some fk → ∃ f₀, t.frames[k]? = some f₀ ∧
      Frame.SamePlace (if k ∈ t.opened.filter (n ≤ ·) then ({ f₀ with live := false } : Frame) else f₀)
        fk := by
    intro k fk hk
    obtain ⟨f₁, h₁, hp⟩ := hc.same.symm.frames k fk hk
    rw [kill_frames] at h₁
    obtain ⟨f₀, h₀, rfl⟩ := Option.map_eq_some_iff.mp h₁
    exact ⟨f₀, h₀, hp.symm⟩
  -- a frame below `n` was not closed and stands where it stood
  have hopen : ∀ k fk, k ∈ t.opened.filter (· < n) → u.frames[k]? = some fk →
      ∃ f₀, t.Open k f₀ ∧ f₀.SamePlace fk ∧ k < n := by
    intro k fk hk hfk
    obtain ⟨hko, hkn⟩ := List.mem_filter.mp hk
    have hkn : k < n := by simpa using hkn
    obtain ⟨f₀, h₀, hp⟩ := hframe k fk hfk
    rw [if_neg (by simp; omega)] at hp
    exact ⟨f₀, ⟨hko, h₀⟩, hp, hkn⟩
  constructor
  case parents_size =>
    show u.parents.size = u.frames.size
    rw [hc.same.parents, hc.same.size, kill_size, kill_parents]
    exact h.parents_size
  case opened_desc => exact h.opened_desc.filter _
  case live_iff =>
    intro k fk hfk
    obtain ⟨f₀, h₀, hp⟩ := hframe k fk hfk
    rw [hp.live]
    show _ ↔ k ∈ t.opened.filter (· < n)
    by_cases hkP : k ∈ t.opened.filter (n ≤ ·)
    · -- closed by this exit
      have hkn : n ≤ k := by simpa using (List.mem_filter.mp hkP).2
      rw [if_pos hkP]
      simp only [Bool.false_eq_true, false_iff, List.mem_filter, decide_eq_true_eq, not_and]
      intro _
      omega
    · rw [if_neg hkP, h.live_iff k f₀ h₀]
      simp only [List.mem_filter, decide_eq_true_eq, not_and, Nat.not_le] at hkP ⊢
      exact ⟨fun hk => ⟨hk, hkP hk⟩, fun hk => hk.1⟩
  case depth => rfl
  case nesting =>
    show (t.opened.filter (· < n)).length ≤ u.manager.maxNestingDepth
    rw [hc.maxNestingDepth]
    exact (List.length_filter_le _ _).trans (by rw [h.depth]; exact h.nesting)
  case depths =>
    intro i k hik
    change (t.opened.filter (· < n))[i]? = some k at hik
    -- below `n` the stack is the old one with the closed frames taken off the top
    have hik' : t.opened[(t.opened.filter (n ≤ ·)).length + i]? = some k := by
      have e : (t.opened.filter (n ≤ ·) ++ t.opened.filter (· < n))[(t.opened.filter (n ≤ ·)).length + i]? =
          (t.opened.filter (· < n))[i]? := by
        rw [List.getElem?_append_right (by omega), Nat.add_sub_cancel_left]
      rw [hsplit] at e
      rw [e]
      exact hik
    obtain ⟨f₀, h₀, hd⟩ := h.depths _ k hik'
    have hkP : k ∉ t.opened.filter (n ≤ ·) := by
      have := List.mem_of_getElem? hik
      simp only [List.mem_filter, decide_eq_true_eq] at this ⊢
      omega
    obtain ⟨fk, hfk, hp⟩ := hc.same.frames k f₀ (by rw [kill_frames, h₀]; simp [hkP])
    refine ⟨fk, hfk, ?_⟩
    show fk.depth = (t.opened.filter (· < n)).length - i
    rw [hp.depth, hd]
    have hlen := congrArg List.length hsplit
    rw [List.length_append] at hlen
    omega
  case parent_open =>
    intro k hk q hq
    obtain ⟨hko, hkn⟩ := List.mem_filter.mp hk
    have hkn : k < n := by simpa using hkn
    rw [hc.same.parents, kill_parents] at hq
    obtain ⟨hqo, hqk⟩ := h.parent_open k hko q hq
    exact ⟨List.mem_filter.mpr ⟨hqo, by simpa using (by omega : q < n)⟩, hqk⟩
  case sound =>
    rintro k fk ⟨hk, hfk⟩
    obtain ⟨f₀, h₀, hp, -⟩ := hopen k fk hk hfk
    exact hp.sound (h.sound k f₀ h₀)
  case mark_le_base =>
    rintro k fk b ⟨hk, hfk⟩ hb
    obtain ⟨f₀, h₀, hp, -⟩ := hopen k fk hk hfk
    rw [hp.base] at hb
    rw [hp.mark]
    exact h.mark_le_base k f₀ b h₀ hb
  case below =>
    rintro j fj k fk ⟨hj, hfj⟩ ⟨hk, hfk⟩ hjk
    obtain ⟨fj₀, hj₀, hpj, -⟩ := hopen j fj hj hfj
    obtain ⟨fk₀, hk₀, hpk, -⟩ := hopen k fk hk hfk
    rw [hpj.stop, hpk.mark]
    exact h.below j fj₀ k fk₀ hj₀ hk₀ hjk
  case stop_le_top =>
    rintro k fk ⟨hk, hfk⟩
    obtain ⟨f₀, h₀, hp, hkn⟩ := hopen k fk hk hfk
    show fk.stop ≤ (u.manager.arena.release fr.mark).top
    rw [htop, hp.stop]
    exact h.below k f₀ n fr h₀ hn hkn
  case top_le_size =>
    show (u.manager.arena.release fr.mark).top ≤ (u.manager.arena.release fr.mark).size
    rw [htop, Arena.size_release, hc.size]
    exact hmark.trans h.top_le_size
  case size_pos =>
    show 0 < (u.manager.arena.release fr.mark).size
    rw [Arena.size_release, hc.size]
    exact h.size_pos
  case ceiling =>
    show (u.manager.arena.release fr.mark).ceiling ≤ 2 ^ 64
    rw [Arena.ceiling_release, hc.ceiling]
    exact h.ceiling
  case counted =>
    show u.manager.stats.loopsEntered = u.manager.stats.loopsExited + (t.opened.filter (· < n)).length
    have hlen := congrArg List.length hsplit
    rw [List.length_append] at hlen
    rw [hc.entered, hc.exited, h.counted, ← h.depth]
    omega

/-- Exit of a frame that is not open changes nothing. -/
theorem Stacked.exit_closed (h : t.Stacked) {n : Nat} (hn : n ∉ t.opened) : (t.exit n).1 = t := by
  unfold exit
  cases hfr : t.frames[n]? with
  | none => rfl
  | some fr =>
    have hdead : fr.live = false := by
      simpa using mt (h.live_iff n fr hfr).mp hn
    simp [hdead]

/-- Exit as a command is the exit of the table, whatever it reports. -/
theorem step_exit (n : Nat) : (t.step (.exit n)).2 = (t.exit n).1 := by
  simp only [step, withFrame]
  split
  · split <;> rename_i heq <;> rw [heq]
  · rename_i hnone
    unfold exit
    rw [hnone]

/-- Opening a frame: refused at the nesting limit, and otherwise frame
`frames.size` is pushed on the stack. -/
theorem enter_cases (h : t.Stacked) (l : Loop) (p : Option Nat) :
    (t.manager.maxNestingDepth ≤ t.manager.depth ∧ ∃ e, t.enter l p = .error e) ∨
      (t.manager.depth < t.manager.maxNestingDepth ∧ ∃ fr m', t.manager.Entered l fr m' ∧
        t.enter l p = .ok (t.frames.size,
          { t with manager := m', frames := t.frames.push fr, parents := t.parents.push p,
                   opened := t.frames.size :: t.opened })) := by
  by_cases hd : t.manager.maxNestingDepth ≤ t.manager.depth
  · obtain ⟨e, he⟩ := Manager.enter_refused l l.shape (t.env p) hd
    refine .inl ⟨hd, e, ?_⟩
    rw [FrameTable.enter, he]
    rfl
  · obtain ⟨fr, m', he, hent⟩ := Manager.enter_spec (l := l) (E := t.env p) h.top_le_size h.size_pos
      h.ceiling (by omega)
    refine .inr ⟨by omega, fr, m', hent, ?_⟩
    rw [FrameTable.enter, he]
    rfl

/-- At the nesting limit an enter is refused and changes nothing. -/
theorem Stacked.step_enter_refused (h : t.Stacked) (hd : t.manager.maxNestingDepth ≤ t.manager.depth)
    (l : Loop) (p : Option Nat) : (t.step (.enter l p)).2 = t := by
  obtain ⟨e, he⟩ : ∃ e, t.enter l p = .error e := by
    rcases enter_cases h l p with ⟨-, he⟩ | ⟨hlt, -⟩
    · exact he
    · omega
  cases p with
  | none => simp only [FrameTable.step, he]
  | some q =>
    simp only [FrameTable.step, withFrame, he]
    split <;> rfl

/-- An admitted enter either changes nothing or pushes a frame that
`Entered` describes, below open frames only. -/
theorem Stacked.step_enter (h : t.Stacked) {l : Loop} {p : Option Nat} (hc : t.Admits (.enter l p)) :
    (t.step (.enter l p)).2 = t ∨
      ∃ fr m', t.manager.depth < t.manager.maxNestingDepth ∧ t.manager.Entered l fr m' ∧
        (∀ q, p = some q → q ∈ t.opened) ∧
        (t.step (.enter l p)).2 =
          { t with manager := m', frames := t.frames.push fr, parents := t.parents.push p,
                   opened := t.frames.size :: t.opened } := by
  rcases enter_cases h l p with ⟨hd, -⟩ | ⟨hd, fr, m', hent, he⟩
  · exact .inl (h.step_enter_refused hd l p)
  cases p with
  | none =>
    simp only [FrameTable.step, he]
    exact .inr ⟨fr, m', hd, hent, (fun q hq => by cases hq), rfl⟩
  | some q =>
    simp only [FrameTable.step, withFrame, he]
    split
    · rename_i fq hfq
      refine .inr ⟨fr, m', hd, hent, fun q' hq' => ?_, rfl⟩
      cases hq'
      exact (h.live_iff q fq hfq).mp (hc fq hfq)
    · exact .inl rfl

/-- The commands that only read the table. -/
def ReadOnly : Command → Prop
  | .stats | .show _ | .global _ | .get _ _ | .int _ _ | .lookup _ _ => True
  | _ => False

/-- A command that only reads leaves the table as it is. -/
theorem step_readOnly {c : Command} (hc : ReadOnly c) : (t.step c).2 = t := by
  cases c with
  | stats => rfl
  | global => rfl
  | «show» n =>
    simp only [FrameTable.step, withFrame]
    split <;> rfl
  | lookup n =>
    simp only [FrameTable.step, withFrame]
    split <;> rfl
  | get n s =>
    simp only [FrameTable.step, withSlot, withFrame]
    split
    · split <;> rfl
    · rfl
  | int n s =>
    simp only [FrameTable.step, withSlot, withFrame]
    split
    · split <;> rfl
    · rfl
  | _ => exact absurd hc id

/-- An environment operation that keeps the environment's frames in place
and the arena's extent keeps a table stacked. -/
theorem Stacked.within {α : Type} (h : t.Stacked) {p : Option Nat}
    (act : Env → Arena → α × Env × Arena)
    (hsp : (t.env p).SamePlaces (act (t.env p) t.manager.arena).2.1)
    (htop : (act (t.env p) t.manager.arena).2.2.top = t.manager.arena.top)
    (hsize : (act (t.env p) t.manager.arena).2.2.size = t.manager.arena.size)
    (hceil : (act (t.env p) t.manager.arena).2.2.ceiling = t.manager.arena.ceiling) :
    (t.within p act).2.Stacked := by
  obtain ⟨hsame, -, hman, hop⟩ := within_spec act hsp
  exact h.of_sameFrames hsame hop (by rw [hman]) (by rw [hman]; exact htop)
    (by rw [hman]; exact hsize) (by rw [hman]; exact hceil)

/-- Every command a stacked table admits leaves it stacked. -/
theorem Stacked.step (h : t.Stacked) {c : Command} (hc : t.Admits c) : (t.step c).2.Stacked := by
  by_cases hr : ReadOnly c
  · rw [step_readOnly hr]
    exact h
  cases c with
  | enter l p =>
    rcases h.step_enter hc with he | ⟨fr, m', hd, hent, hp, he⟩
    · rw [he]
      exact h
    · rw [he]
      exact h.entered hd hent hp
  | exit n =>
    rw [step_exit]
    by_cases hn : n ∈ t.opened
    · obtain ⟨fr, hfr⟩ := h.frame_of_mem hn
      obtain ⟨hcl, he⟩ := h.exit_open hfr
      rw [he]
      exact h.exited hfr hcl
    · rw [h.exit_closed hn]
      exact h
  | reset => exact absurd hc id
  | stats | «show» _ | global _ | get _ _ | int _ _ | lookup _ _ => exact absurd trivial hr
  | unset n k =>
    simp only [FrameTable.step, withSlot, withFrame]
    split
    · rename_i fr hfr
      split
      · exact h.of_sameFrames (sameFrames_set hfr Frame.samePlace_unset) rfl rfl rfl rfl rfl
      · exact h
    · exact h
  | put n k v =>
    simp only [FrameTable.step, withSlot, withFrame]
    split
    · rename_i fr hfr
      split
      · exact h.of_sameFrames ((sameFrames_set hfr Frame.samePlace_put).trans (sameFrames_manager _))
          rfl rfl (Frame.top_put v) Frame.size_put Frame.ceiling_put
      · exact h
    · exact h
  | putInt n k v =>
    simp only [FrameTable.step, withSlot, withFrame, Frame.putInt_eq_put]
    split
    · rename_i fr hfr
      split
      · exact h.of_sameFrames ((sameFrames_set hfr Frame.samePlace_put).trans (sameFrames_manager _))
          rfl rfl (Frame.top_put _) Frame.size_put Frame.ceiling_put
      · exact h
    · exact h
  | assign n name v =>
    simp only [FrameTable.step, withFrame]
    split
    · rename_i fr hfr
      have hn : n ∈ t.opened := (h.live_iff n fr hfr).mp (hc fr hfr)
      have hsound := h.env_sound (p := some n) fun q hq => by cases hq; exact hn
      dsimp only
      -- each fact for a bound name, then for an unbound one, which changes nothing
      refine h.within _ ?_ ?_ ?_ ?_ <;> split <;> rename_i heq
      · exact (Env.assign_spec hsound heq).1
      · exact Env.SamePlaces.refl _
      · exact (Env.assign_spec hsound heq).2.2.1
      · rfl
      · exact (Env.assign_spec hsound heq).2.1
      · rfl
      · exact (Env.assign_spec hsound heq).2.2.2.1
      · rfl
    · exact h
  | declare n name v =>
    simp only [FrameTable.step, withFrame]
    split
    · rename_i fr hfr
      have hn : n ∈ t.opened := (h.live_iff n fr hfr).mp (hc fr hfr)
      have hsound := h.env_sound (p := some n) fun q hq => by cases hq; exact hn
      obtain ⟨hsp, hsz, htp, hcl, -⟩ := Env.declare_spec (a := t.manager.arena) (n := name) (v := v)
        (chain_ne_nil _ _) hsound
      exact h.within (p := some n) (fun env a => ((), (env.declare a name v).1, (env.declare a name v).2))
        hsp htp hsz hcl
    · exact h

/-- The table after a script of commands, run in order. -/
def run (t : FrameTable) (cmds : List Command) : FrameTable := cmds.foldl (fun t c => (t.step c).2) t

@[simp] theorem run_nil : t.run [] = t := rfl

@[simp] theorem run_cons (c : Command) (cmds : List Command) : t.run (c :: cmds) = (t.step c).2.run cmds :=
  rfl

/-- Every command of a script is admitted by the table it meets. -/
def Admissible : FrameTable → List Command → Prop
  | _, [] => True
  | t, c :: cs => t.Admits c ∧ Admissible (t.step c).2 cs

/-- A script of admitted commands keeps a table stacked. -/
theorem Stacked.run : ∀ {t : FrameTable} {cmds : List Command}, t.Stacked → t.Admissible cmds →
    (t.run cmds).Stacked
  | _, [], h, _ => h
  | _, _ :: _, h, ⟨hc, hcs⟩ => by
    rw [run_cons]
    exact Stacked.run (h.step hc) hcs

end FrameTable

end HotLoop
