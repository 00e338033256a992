import HotLoop.Proofs.Memory.Slots
/-!
# Loop frames are stacked and isolated

What holds along every run of a frame table from a new one in which no
command resets the table, stores through a frame that is no longer open, or
opens a frame below one (`FrameTable.Admissible`):

* the live frames are the open ones, innermost first with depths `n` down
  to `1`, and `n` is the manager's depth, within its limit;
* the slots of open frames lie in the arena in the order of the frames'
  depths, hence pairwise apart, and below the arena's top;
* the loop counters differ by the depth;
* a get answers the slot; a put, putInt or declaration reads back, an unset
  slot reads as not set, and an accepted assignment is what a lookup through
  the same frame then finds;
* a slot that later commands do not write keeps its value while its frame
  stays open, whatever they do to other frames (`Keeps`);
* an exit closes the frame and every frame above it, innermost first, and
  releases the arena to the frame's mark; an enter at the nesting limit
  changes nothing.

Stores through closed frames have to be excluded: an exit hands a frame's
bytes to the next frame opened, and a put through the closed frame lands in
the new frame's slot (`stale_frame_put_overwrites`).
-/

namespace HotLoop

namespace FrameTable

variable {t : FrameTable} {j k s : Nat} {fj fk : Frame}

/-! ## Regions of open frames -/

/-- An open frame's slots end where the slots of any frame opened after it
may begin. -/
theorem Stacked.region_below (h : t.Stacked) (hj : t.Open j fj) (hk : t.Open k fk) (hjk : j < k)
    {bj bk : Nat} (hbj : fj.base = some bj) (hbk : fk.base = some bk) : bj + 8 * fj.numSlots ≤ bk := by
  have hstop := h.below j fj k fk hj hk hjk
  have hmark := h.mark_le_base k fk bk hk hbk
  simp only [Frame.stop, hbj] at hstop
  omega

/-- Open frames are numbered in the order of their depths. -/
theorem Stacked.lt_of_depth_lt (h : t.Stacked) (hj : t.Open j fj) (hk : t.Open k fk)
    (hd : fj.depth < fk.depth) : j < k := by
  obtain ⟨ij, hij⟩ := List.mem_iff_getElem?.mp hj.1
  obtain ⟨ik, hik⟩ := List.mem_iff_getElem?.mp hk.1
  obtain ⟨fj', hfj', hdj⟩ := h.depths ij j hij
  obtain ⟨fk', hfk', hdk⟩ := h.depths ik k hik
  rw [hj.2, Option.some.injEq] at hfj'
  rw [hk.2, Option.some.injEq] at hfk'
  subst hfj' hfk'
  obtain ⟨hlj, hj'⟩ := List.getElem?_eq_some_iff.mp hij
  obtain ⟨hlk, hk'⟩ := List.getElem?_eq_some_iff.mp hik
  -- the deeper frame stands nearer the front of the stack, which is listed
  -- innermost first in decreasing numbers
  have hlt : ik < ij := by omega
  have hgt := List.pairwise_iff_getElem.mp h.opened_desc ik ij hlk hlj hlt
  rw [hj', hk'] at hgt
  exact hgt

/-- The slots of open frames lie in the arena in the order of the frames'
depths. -/
theorem Stacked.region_lt_of_depth (h : t.Stacked) (hj : t.Open j fj) (hk : t.Open k fk)
    (hd : fj.depth < fk.depth) {bj bk : Nat} (hbj : fj.base = some bj) (hbk : fk.base = some bk) :
    bj + 8 * fj.numSlots ≤ bk :=
  h.region_below hj hk (h.lt_of_depth_lt hj hk hd) hbj hbk

/-- The slots of two open frames do not meet. -/
theorem Stacked.regions_apart (h : t.Stacked) (hj : t.Open j fj) (hk : t.Open k fk) (hne : j ≠ k)
    {bj bk : Nat} (hbj : fj.base = some bj) (hbk : fk.base = some bk) :
    bj + 8 * fj.numSlots ≤ bk ∨ bk + 8 * fk.numSlots ≤ bj := by
  rcases Nat.lt_or_gt_of_ne hne with hjk | hkj
  · exact .inl (h.region_below hj hk hjk hbj hbk)
  · exact .inr (h.region_below hk hj hkj hbk hbj)

/-- The slots of an open frame lie below the arena's top. -/
theorem Stacked.region_le_top (h : t.Stacked) (hk : t.Open k fk) {bk : Nat} (hbk : fk.base = some bk) :
    bk + 8 * fk.numSlots ≤ t.manager.arena.top := by
  have hstop := h.stop_le_top k fk hk
  simp only [Frame.stop, hbk] at hstop
  exact hstop

/-! ## Runs -/

/-- A get of a slot of a frame answers what the slot holds. -/
theorem step_get (hfr : t.frames[k]? = some fk) (hs : s < fk.numSlots) :
    (t.step (.get k s)).1 = .slot (t.slot? k s) (fk.kind s) := by
  simp [FrameTable.step, withSlot, withFrame, hfr, hs, slot?]

/-- Frame `k` stays open along the commands, and none of them writes its
slot `s`. -/
def Keeps (k s : Nat) : FrameTable → List Command → Prop
  | _, [] => True
  | t, c :: cs => k ∈ (t.step c).2.opened ∧ ¬ t.Writes k s c ∧ Keeps k s (t.step c).2 cs

/-- A slot of a frame that a run of admitted commands keeps open and never
writes holds at the end what it held at the start. -/
theorem Stacked.slot?_run : ∀ {t : FrameTable} {cmds : List Command}, t.Stacked → t.Admissible cmds →
    k ∈ t.opened → Keeps k s t cmds → (t.run cmds).slot? k s = t.slot? k s
  | _, [], _, _, _, _ => rfl
  | _, _ :: _, h, ⟨hc, hcs⟩, hk, ⟨hk', hw, hkeep⟩ => by
    rw [run_cons, Stacked.slot?_run (h.step hc) hcs hk' hkeep, h.slot?_step hc hk hk' hw]

/-! ## The laws of every run -/

/-- **Frames are stacked and isolated.** Along every run of admitted
commands from a new table: the live frames are the open ones, with depths
`n` down to `1` from the innermost, and `n` is the depth, within its limit;
the slots of open frames are ordered by depth, apart and below the arena's
top; the loop counters differ by the depth; a get answers the slot, every
store reads back, and a slot keeps its value along any run that keeps its
frame open and does not write it; an exit closes, innermost first, the frame
and every frame opened after it that is still open, keeps the frames below
it and releases the arena to its mark; and an enter refused for depth
changes nothing. -/
theorem frames_stacked_isolated (o : MemoryOptions) (g : Bindings) (hsize : o.arenaSize < 2 ^ 63)
    (hceil : o.arenaCeiling < 2 ^ 63) (cmds : List Command)
    (hadm : ({ manager := Manager.new o, globals := g } : FrameTable).Admissible cmds) :
    let t := ({ manager := Manager.new o, globals := g } : FrameTable).run cmds
    (∀ k, t.Live k ↔ k ∈ t.opened) ∧
    t.opened.length = t.manager.depth ∧ t.manager.depth ≤ t.manager.maxNestingDepth ∧
    (∀ i k, t.opened[i]? = some k → ∃ fr, t.frames[k]? = some fr ∧ fr.depth = t.opened.length - i) ∧
    (∀ j fj k fk bj bk, t.Open j fj → t.Open k fk → fj.base = some bj → fk.base = some bk →
      (fj.depth < fk.depth → bj + 8 * fj.numSlots ≤ bk) ∧
      (j ≠ k → bj + 8 * fj.numSlots ≤ bk ∨ bk + 8 * fk.numSlots ≤ bj) ∧
      bk + 8 * fk.numSlots ≤ t.manager.arena.top) ∧
    t.manager.stats.loopsEntered = t.manager.stats.loopsExited + t.manager.depth ∧
    (∀ n fn s, t.Open n fn → s < fn.numSlots →
      (t.step (.get n s)).1 = .slot (t.slot? n s) (fn.kind s) ∧
      (∀ v, (t.step (.put n s v)).2.slot? n s = some v) ∧
      (∀ i, (t.step (.putInt n s i)).2.slot? n s = some (.int i)) ∧
      (∀ name v, fn.slotOf? name = some s → (t.step (.declare n name v)).2.slot? n s = some v) ∧
      (t.step (.unset n s)).2.slot? n s = none) ∧
    (∀ n fn name v, t.Open n fn → (t.step (.assign n name v)).1 = .ok →
      ((t.step (.assign n name v)).2.step (.lookup n name)).1 = .found (some v)) ∧
    (∀ k s more, k ∈ t.opened → t.Admissible more → Keeps k s t more →
      (t.run more).slot? k s = t.slot? k s) ∧
    (∀ n fr, t.Open n fr →
      (t.step (.exit n)).2 =
        let u := (t.opened.filter (n ≤ ·)).foldl (fun u k => (u.close k).1) t
        { u with
          opened := t.opened.filter (· < n)
          manager := { u.manager with
            arena := u.manager.arena.release fr.mark, depth := (t.opened.filter (· < n)).length } }) ∧
    (∀ l p, t.manager.maxNestingDepth ≤ t.manager.depth → (t.step (.enter l p)).2 = t) := by
  intro t
  have h : t.Stacked := (stacked_new o g hsize hceil).run hadm
  refine ⟨fun k => h.live_iff_mem, h.depth, h.nesting, h.depths, ?_, h.counted, ?_,
    fun n fn name v hn hok => h.lookup_assign_self hn hok,
    fun k s more hk hm hkeep => h.slot?_run hm hk hkeep,
    fun n fr hn => (step_exit n).trans (h.exit_open hn).2,
    fun l p hd => h.step_enter_refused hd l p⟩
  · intro j fj k fk bj bk hj hk hbj hbk
    exact ⟨fun hd => h.region_lt_of_depth hj hk hd hbj hbk, fun hne => h.regions_apart hj hk hne hbj hbk,
      h.region_le_top hk hbk⟩
  · intro n fn s hn hs
    exact ⟨step_get hn.2 hs, h.slot?_put_self hn hs, h.slot?_putInt_self hn hs,
      fun name v hname => h.slot?_declare_self hn hname v, slot?_unset_self hn.2 hs⟩

/-- A loop `for i in 0..1 {}`, with one slot for its counter. -/
def oneSlotLoop : Loop := ⟨0, ⟨1, 1⟩, .range "i" (.int ⟨1, 1⟩ 0) (.int ⟨1, 1⟩ 1) none, []⟩

/-- Three frames entered one inside the other, a put through the innermost
and one through the outermost, an exit of the middle frame, which closes the
innermost with it, and a last put through the outermost. -/
def nestedScript : List Command :=
  [.enter oneSlotLoop none, .enter oneSlotLoop (some 0), .enter oneSlotLoop (some 1), .put 2 0 (.int 5),
    .put 0 0 (.int 3), .exit 1, .put 0 0 (.int 4)]

/-- A frame the table lists as live admits the commands that name it. -/
theorem live_of_map_live {u : FrameTable} {p : Nat} (h : u.frames[p]?.map (·.live) = some true) :
    ∀ fr, u.frames[p]? = some fr → fr.live = true := by
  intro fr hfr
  rw [hfr] at h
  exact Option.some.inj h

/-- The nested script is admissible: every enter names an open parent and
every put an open frame. It leaves the outermost frame open alone, at depth
one, with the last value put in its slot, and the laws of every run hold of
the table it leaves. -/
theorem frames_stacked_isolated_nested :
    let o : MemoryOptions := { arenaSize := 64 }
    let t := ({ manager := Manager.new o, globals := [] } : FrameTable).run nestedScript
    o.arenaSize < 2 ^ 63 ∧ o.arenaCeiling < 2 ^ 63 ∧
    ({ manager := Manager.new o, globals := [] } : FrameTable).Admissible nestedScript ∧
    t.opened = [0] ∧ t.manager.depth = 1 ∧ (t.slot? 0 0).map (fun v => (v.kind, v.bits)) = some (.int, 4) ∧
    (∀ k, t.Live k ↔ k ∈ t.opened) ∧
    t.opened.length = t.manager.depth ∧ t.manager.depth ≤ t.manager.maxNestingDepth ∧
    (∀ i k, t.opened[i]? = some k → ∃ fr, t.frames[k]? = some fr ∧ fr.depth = t.opened.length - i) ∧
    (∀ j fj k fk bj bk, t.Open j fj → t.Open k fk → fj.base = some bj → fk.base = some bk →
      (fj.depth < fk.depth → bj + 8 * fj.numSlots ≤ bk) ∧
      (j ≠ k → bj + 8 * fj.numSlots ≤ bk ∨ bk + 8 * fk.numSlots ≤ bj) ∧
      bk + 8 * fk.numSlots ≤ t.manager.arena.top) ∧
    t.manager.stats.loopsEntered = t.manager.stats.loopsExited + t.manager.depth ∧
    (∀ n fn s, t.Open n fn → s < fn.numSlots →
      (t.step (.get n s)).1 = .slot (t.slot? n s) (fn.kind s) ∧
      (∀ v, (t.step (.put n s v)).2.slot? n s = some v) ∧
      (∀ i, (t.step (.putInt n s i)).2.slot? n s = some (.int i)) ∧
      (∀ name v, fn.slotOf? name = some s → (t.step (.declare n name v)).2.slot? n s = some v) ∧
      (t.step (.unset n s)).2.slot? n s = none) ∧
    (∀ n fn name v, t.Open n fn → (t.step (.assign n name v)).1 = .ok →
      ((t.step (.assign n name v)).2.step (.lookup n name)).1 = .found (some v)) ∧
    (∀ k s more, k ∈ t.opened → t.Admissible more → Keeps k s t more →
      (t.run more).slot? k s = t.slot? k s) ∧
    (∀ n fr, t.Open n fr →
      (t.step (.exit n)).2 =
        let u := (t.opened.filter (n ≤ ·)).foldl (fun u k => (u.close k).1) t
        { u with
          opened := t.opened.filter (· < n)
          manager := { u.manager with
            arena := u.manager.arena.release fr.mark, depth := (t.opened.filter (· < n)).length } }) ∧
    (∀ l p, t.manager.maxNestingDepth ≤ t.manager.depth → (t.step (.enter l p)).2 = t) := by
  have hsize : ({ arenaSize := 64 } : MemoryOptions).arenaSize < 2 ^ 63 := by decide
  have hceil : ({ arenaSize := 64 } : MemoryOptions).arenaCeiling < 2 ^ 63 := by decide
  have hadm : ({ manager := Manager.new { arenaSize := 64 }, globals := [] } : FrameTable).Admissible
      nestedScript :=
    -- every parent entered and every frame put through is live after the
    -- commands before it, as the kernel computes
    ⟨trivial, live_of_map_live (by decide +kernel), live_of_map_live (by decide +kernel),
      live_of_map_live (by decide +kernel), live_of_map_live (by decide +kernel), trivial,
      live_of_map_live (by decide +kernel), trivial⟩
  exact ⟨hsize, hceil, hadm, by decide +kernel, by decide +kernel, by decide +kernel,
    frames_stacked_isolated _ [] hsize hceil nestedScript hadm⟩

/-- A put through a frame that an exit has closed lands in the slot of the
frame opened next on the same bytes: frame `1` is open and was last given
`5` in its slot, yet the slot reads `7`. -/
theorem stale_frame_put_overwrites :
    let t := ({ manager := Manager.new { arenaSize := 16 }, globals := [] } : FrameTable).run
      [.enter oneSlotLoop none, .exit 0, .enter oneSlotLoop none, .put 1 0 (.int 5), .put 0 0 (.int 7)]
    t.opened = [1] ∧ t.slot? 1 0 = some (.int 7) := by
  cbv

end FrameTable

end HotLoop
