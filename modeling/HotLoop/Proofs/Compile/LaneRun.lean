import HotLoop.Proofs.Compile.Lanes
import HotLoop.Proofs.Compile.Unroll
import HotLoop.Proofs.Memory.FrameScope
/-!
# HotLoop.Proofs.Compile.LaneRun

The run of a counted loop that keeps reductions in lanes against the plain
run of the same loop, step by step.

* `Op.foldl_modify`: adding a contribution to one lane and folding the lanes
  gives the fold with the contribution added last, because wrapping `+` and
  `*` are associative and commutative.
* `LaneCode` relates the compiled statements of the two runs: the same
  statement where it touches no accumulator, and a reduction on one side
  where the other runs its sequential update (`Update.Folds`).
* Each lane operation keeps the runs paired: opening the lanes
  (`Paired.openLanes`), one contribution (`lockstep_reduce`), flushing one
  lane (`Paired.flushLane`) and closing them all (`Paired.closeLanes`).
-/

namespace HotLoop

/-! ## Reduction operators -/

namespace Op

variable {op : Op}

theorem combine_assoc (hop : op = .add ∨ op = .mul) (a b c : Int64) :
    op.combine (op.combine a b) c = op.combine a (op.combine b c) := by
  rcases hop with rfl | rfl
  · simp [combine, Int64.add_assoc]
  · simp [combine, Int64.mul_assoc]

theorem combine_comm (hop : op = .add ∨ op = .mul) (a b : Int64) :
    op.combine a b = op.combine b a := by
  rcases hop with rfl | rfl
  · simp [combine, Int64.add_comm]
  · simp [combine, Int64.mul_comm]

theorem combine_identity (hop : op = .add ∨ op = .mul) (a : Int64) :
    op.combine a op.identity = a := by
  rcases hop with rfl | rfl
  · simp [combine, identity]
  · simp [combine, identity]

/-- A reduction operator on two integers is its wrapping combination. -/
theorem binary_int (hop : op = .add ∨ op = .mul) (a b : Int64) :
    Value.binary op (.int a) (.int b) = .ok (.int (op.combine a b)) := by
  rcases hop with rfl | rfl <;> rfl

/-- A contribution folded in first counts as one folded in last. -/
theorem foldl_combine_right (hop : op = .add ∨ op = .mul) (n : Int64) :
    ∀ (l : List Int64) (x : Int64), l.foldl op.combine (op.combine x n) = op.combine (l.foldl op.combine x) n
  | [], _ => rfl
  | m :: l, x => by
    rw [List.foldl_cons, List.foldl_cons, combine_assoc hop, combine_comm hop n m, ← combine_assoc hop]
    exact foldl_combine_right hop n l (op.combine x m)

/-- Adding a contribution to one lane adds it to the fold of the lanes. -/
theorem foldl_modify (hop : op = .add ∨ op = .mul) (n : Int64) :
    ∀ (l : List Int64) (x : Int64) (L : Nat), L < l.length →
      (l.modify L (op.combine · n)).foldl op.combine x = op.combine (l.foldl op.combine x) n
  | [], _, _, h => absurd h (Nat.not_lt_zero _)
  | m :: l, x, 0, _ => by
    rw [List.modify_zero_cons, List.foldl_cons, List.foldl_cons, ← combine_assoc hop]
    exact foldl_combine_right hop n l _
  | m :: l, x, L + 1, h => by
    rw [List.modify_succ_cons, List.foldl_cons, List.foldl_cons]
    exact foldl_modify hop n l _ L (by simpa using h)

/-- Lanes that all hold the identity fold to nothing. -/
theorem foldl_identity (hop : op = .add ∨ op = .mul) :
    ∀ (k : Nat) (x : Int64), (List.replicate k op.identity).foldl op.combine x = x
  | 0, _ => rfl
  | k + 1, x => by
    rw [List.replicate_succ, List.foldl_cons, combine_identity hop]
    exact foldl_identity hop k x

end Op

/-! ## The statements of the two runs -/

/-- The sequential update of a reduction into the accumulator in slot `sl`:
`acc op= contrib` and `acc = acc op contrib` keep the accumulator on the
left (`true`), `acc = contrib op acc` on the right. -/
inductive Update.Folds (sl : Nat) (op : Op) (contrib : Calc) (node : Nat) : Bool → Update → Prop
  | compound (k : Nat) : Update.Folds sl op contrib node true (.compound k (some sl) node op contrib none)
  | left (k n m : Nat) :
    Update.Folds sl op contrib node true (.store k (some sl) m (.binary op (.var k (some sl) n) contrib node))
  | right (k n m : Nat) :
    Update.Folds sl op contrib node false (.store k (some sl) m (.binary op contrib (.var k (some sl) n) node))

/-- The statement `cV` of the run with lanes and `cP` of the plain run: the
same statement when it touches no accumulator, or reduction `j` against its
sequential update. -/
inductive LaneCode (lanes : List (Nat × Op)) : Code → Code → Prop
  | put {slot : Nat} {v : Calc} : (∀ t ∈ slot :: v.slots, t ∉ lanes.map Prod.fst) →
    LaneCode lanes (.put slot v) (.put slot v)
  | update {u : Update} : (∀ t ∈ u.slots, t ∉ lanes.map Prod.fst) → LaneCode lanes (.update u) (.update u)
  | reduce {j sl : Nat} {op : Op} {contrib : Calc} {node : Nat} {accLeft : Bool} {seq : Update} :
    lanes[j]? = some (sl, op) → (∀ t ∈ contrib.slots, t ∉ lanes.map Prod.fst) →
    seq.Folds sl op contrib node accLeft →
    LaneCode lanes (.reduce j sl op contrib node accLeft seq) (.update seq)

/-- A slot that is no accumulator is never an open one. -/
theorem Work.not_open {w : Work} {lanes : List (Nat × Op)} {t : Nat} (ht : t ∉ lanes.map Prod.fst) :
    ¬ w.Open lanes t := by
  rintro ⟨j, op, hj, -⟩
  exact ht (List.mem_map.mpr ⟨(t, op), List.mem_of_getElem? hj, rfl⟩)

/-- A read of the plain run alone. -/
theorem Reads.right {α : Type} {x : Act α} {wV wP : Work} (h : Reads x wV wP) : Reads x wP wP := by
  rcases h with ⟨a, -, hP⟩ | ⟨e, -, hP⟩
  · exact .inl ⟨a, hP, hP⟩
  · exact .inr ⟨e, hP, hP⟩

theorem Act.read_int (s : Subject) (k : Nat) {sl : Nat} (node : Nat) {w : Work}
    (hset : w.frame.slotSet sl = true) (hk : w.frame.kind sl = .int) :
    Act.read s k (some sl) node w = .ok (.int (w.frame.int w.arena sl)) w := by
  simp [Act.read, Act.get?, Frame.get?, hset, hk, Value.ofBits, Frame.int, bind, EStateM.bind, pure,
    EStateM.pure]

theorem Act.write_set (s : Subject) (k : Nat) {sl : Nat} (node : Nat) (v : Value) {w : Work}
    (hset : w.frame.slotSet sl = true) : Act.write s k (some sl) node v w = Act.put sl v w := by
  simp only [Act.write, hset, if_true]

/-- The sequential update of a reduction: the contribution, then the operator
on the accumulator's integer and the contribution in their order, then the
put into the accumulator's slot. -/
theorem Update.Folds.exec_eq {sl : Nat} {op : Op} {contrib : Calc} {node : Nat} {accLeft : Bool}
    {u : Update} (hf : u.Folds sl op contrib node accLeft) (s : Subject) {w : Work}
    (hset : w.frame.slotSet sl = true) (hk : w.frame.kind sl = .int) (hc : Reads (contrib.eval s) w w) :
    u.exec s w = (contrib.eval s >>= fun y =>
      Act.located s node (Value.binary op (if accLeft then .int (w.frame.int w.arena sl) else y)
        (if accLeft then y else .int (w.frame.int w.arena sl))) >>= Act.put sl) w := by
  rcases hc with ⟨y, hy, -⟩ | ⟨e, he, -⟩
  · cases hf
    all_goals
      simp only [Update.exec, Calc.eval, bind, EStateM.bind, hy, Act.read_int s _ _ hset hk, if_true,
        Bool.false_eq_true, if_false]
      generalize Value.binary op _ _ = r
      cases r with
      | ok v => exact Act.write_set s _ _ v hset
      | error e => rfl
  · cases hf
    all_goals
      simp only [Update.exec, Calc.eval, bind, EStateM.bind, he, Act.read_int s _ _ hset hk]

/-! ## Lanes, one at a time -/

namespace Frame

theorem lt_of_slotSet {f : Frame} {s : Nat} (hs : f.slotSet s = true) : s < f.isSet.size := by
  by_contra h
  simp [slotSet, Array.getD, h] at hs

/-- A set slot of a frame stacked in its arena fits there. -/
theorem fits_of_stacked {f : Frame} {rest : Env} {a : Arena} (h : Env.Stacked (.frame f :: rest) a.size)
    {s : Nat} (hs : f.slotSet s = true) : f.Fits a s := by
  obtain ⟨hf, hsome, hnone⟩ := Env.stacked_frame.mp h
  have hlt : s < f.numSlots := hf.isSet_size ▸ lt_of_slotSet hs
  refine ⟨fun b hb => ?_, fun _ => ?_⟩
  · have := (hsome b hb).1
    omega
  · rw [hf.heap_size]
    exact hlt

theorem Alike.fits {O : Nat → Prop} {fV fP : Frame} {aV aP : Arena} (h : Alike O fV aV fP aP) {s : Nat}
    (hfit : fV.Fits aV s) : fP.Fits aP s :=
  ⟨fun b hb => h.arena.size ▸ hfit.1 b (h.base ▸ hb), fun hb => h.heap_size ▸ hfit.2 (h.base ▸ hb)⟩

end Frame

/-- A put keeps a frame stacked over the same arena size. -/
theorem Env.stacked_put_size {f : Frame} {rest : Env} {a : Arena} (h : Stacked (.frame f :: rest) a.size)
    (s : Nat) (v : Value) : Stacked (.frame (f.put a s v).1 :: rest) (f.put a s v).2.size := by
  rw [Frame.size_put]
  exact Env.stacked_put h a s v

namespace LaneList

variable {lanes : List (Nat × Op)} {width : Nat}

/-- Each accumulator has one reduction. -/
theorem index_unique (hl : LaneList lanes width) {j j' s : Nat} {op op' : Op}
    (hj : lanes[j]? = some (s, op)) (hj' : lanes[j']? = some (s, op')) : j = j' := by
  have hlt : j < (lanes.map Prod.fst).length := by
    simpa using (List.getElem?_eq_some_iff.mp hj).1
  refine (List.getElem?_inj hlt hl.nodup).mp ?_
  simp [List.getElem?_map, hj, hj']

theorem op_reduces (hl : LaneList lanes width) {j s : Nat} {op : Op} (hj : lanes[j]? = some (s, op)) :
    op = .add ∨ op = .mul :=
  hl.ops (s, op) (List.mem_of_getElem? hj)

end LaneList

section Switches

variable {xs : Array Bool} {j j' : Nat}

theorem getD_set!_false : (xs.set! j false).getD j false = false := by
  by_cases h : j < xs.size <;> simp [Array.getD_eq_getD_getElem?, Array.set!_eq_setIfInBounds, h]

theorem getD_set!_of_ne (h : j ≠ j') (x : Bool) : (xs.set! j x).getD j' false = xs.getD j' false := by
  simp [Array.getD_eq_getD_getElem?, Array.set!_eq_setIfInBounds, h]

/-- A switch still on after switch `j` is turned off is another one, and it
was on before. -/
theorem getD_set!_false_eq_true (h : (xs.set! j false).getD j' false = true) :
    j ≠ j' ∧ xs.getD j' false = true := by
  have hne : j ≠ j' := by
    rintro rfl
    rw [getD_set!_false] at h
    exact Bool.false_ne_true h
  exact ⟨hne, by rwa [getD_set!_of_ne hne] at h⟩

end Switches

/-- Flushing an open lane puts the fold of its partial results into the
accumulator and closes the lane. -/
theorem flushLane_eq (j sl : Nat) (op : Op) (w : Work) :
    flushLane j sl op w = if w.laneOn.getD j false then
      .ok () { w with
        frame := (w.frame.put w.arena sl (.int ((w.lanes.getD j #[]).foldl op.combine (w.frame.int w.arena sl)))).1,
        arena := (w.frame.put w.arena sl (.int ((w.lanes.getD j #[]).foldl op.combine (w.frame.int w.arena sl)))).2,
        laneOn := w.laneOn.set! j false }
    else .ok () w := rfl

namespace Paired

variable {lanes : List (Nat × Op)} {width : Nat} {wV wP : Work}

/-- Flushing lane `j` folds its partial results into the accumulator on the
side with lanes only, and closes the lane: the runs stay paired, and no
lane opens. -/
theorem flushLane (hp : Paired lanes width wV wP) (hl : LaneList lanes width) {j sl : Nat} {op : Op}
    (hj : lanes[j]? = some (sl, op)) :
    ∃ wV', HotLoop.flushLane j sl op wV = .ok () wV' ∧ Paired lanes width wV' wP ∧
      ¬ wV'.Open lanes sl ∧ ∀ t, wV'.Open lanes t → wV.Open lanes t := by
  rw [flushLane_eq]
  split
  · rename_i hon
    have hh := hp.lane j sl op hj hon
    refine ⟨_, rfl, ?_, ?_, ?_⟩
    rotate_left
    · rintro ⟨j', op', hj', hon'⟩
      exact (getD_set!_false_eq_true hon').1 (hl.index_unique hj hj')
    · rintro t ⟨j', op', hj', hon'⟩
      exact ⟨j', op', hj', (getD_set!_false_eq_true hon').2⟩
    refine ⟨hp.parent, hp.hoist, hp.iter, ?_, Env.stacked_put_size hp.stacked sl _, ?_⟩
    · -- the accumulator now holds what the plain run holds
      have hc := hp.alike.close ⟨j, op, hj, hon⟩ hh.set hh.kind (Frame.fits_of_stacked hp.stacked hh.set)
        hh.word
      refine hc.mono fun t ht => ?_
      obtain ⟨⟨j', op', hj', hon'⟩, hne⟩ := ht
      refine ⟨j', op', hj', ?_⟩
      have hjj : j ≠ j' := by
        rintro rfl
        rw [hj] at hj'
        cases hj'
        exact hne rfl
      show (wV.laneOn.set! j false).getD j' false = true
      rw [getD_set!_of_ne hjj]
      exact hon'
    · intro j' t op' hj' hon'
      change (wV.laneOn.set! j false).getD j' false = true at hon'
      obtain ⟨hjj, hon''⟩ := getD_set!_false_eq_true hon'
      have hts : sl ≠ t := fun h => hjj (hl.index_unique hj (h ▸ hj'))
      have hold := hp.lane j' t op' hj' hon''
      exact ⟨by rw [Frame.slotSet_put_of_ne hts]; exact hold.set,
        by rw [Frame.kind_put_of_ne hts]; exact hold.kind, hold.size,
        by rw [Frame.int_put_of_ne hts]; exact hold.word⟩
  · rename_i hon
    refine ⟨wV, rfl, hp, ?_, fun _ h => h⟩
    rintro ⟨j', op', hj', hon'⟩
    rw [← hl.index_unique hj hj'] at hon'
    exact hon hon'

/-- An integer contribution added to lane `iter mod width` of an open
reduction on one side, and to the accumulator on the other, keeps the runs
paired. -/
theorem accumulate (hp : Paired lanes width wV wP) (hl : LaneList lanes width) {j sl : Nat} {op : Op}
    (hj : lanes[j]? = some (sl, op)) (hon : wV.laneOn.getD j false = true) (n : Int64) :
    Paired lanes width
      { wV with lanes := wV.lanes.modify j fun ps => ps.modify (wV.iter % width) (op.combine · n) }
      { wP with
        frame := (wP.frame.put wP.arena sl (.int (op.combine (wP.frame.int wP.arena sl) n))).1,
        arena := (wP.frame.put wP.arena sl (.int (op.combine (wP.frame.int wP.arena sl) n))).2 } := by
  have hh := hp.lane j sl op hj hon
  have hj_lt : j < wV.lanes.size := by
    by_contra hge
    have h0 := hh.size
    simp only [Array.getD, hge, dite_false, Array.size_empty] at h0
    exact absurd h0.symm (Nat.pos_iff_ne_zero.mp hl.width_pos)
  have hlanes : ∀ j' (g : Array Int64 → Array Int64), (wV.lanes.modify j g).getD j' #[] =
      if j = j' then g (wV.lanes.getD j' #[]) else wV.lanes.getD j' #[] := by
    intro j' g
    by_cases hjj : j = j'
    · subst hjj
      simp [Array.getD_eq_getD_getElem?, Array.getElem_modify, hj_lt]
    · simp only [Array.getD_eq_getD_getElem?, Array.getElem?_modify, if_neg hjj]
  refine ⟨hp.parent, hp.hoist, hp.iter, hp.alike.put_right ⟨j, op, hj, hon⟩ hh.set hh.kind _, hp.stacked,
    fun j' t op' hj' hon' => ?_⟩
  by_cases hjj : j = j'
  · -- the lane that took the contribution
    subst hjj
    rw [hj] at hj'
    cases hj'
    have hop := hl.op_reduces hj
    have hL : wV.iter % width < (wV.lanes.getD j #[]).toList.length := by
      rw [Array.length_toList, hh.size]
      exact Nat.mod_lt _ hl.width_pos
    have hcur : wP.frame.int wP.arena sl = (wV.lanes.getD j #[]).foldl op.combine (wV.frame.int wV.arena sl) := by
      simp only [Frame.int, hh.word, Int64.toInt64_toUInt64]
    refine ⟨hh.set, hh.kind, ?_, ?_⟩
    · show ((wV.lanes.modify j _).getD j #[]).size = width
      rw [hlanes, if_pos rfl, Array.size_modify, hh.size]
    · show (wP.frame.put wP.arena sl _).1.word (wP.frame.put wP.arena sl _).2 sl =
        (((wV.lanes.modify j _).getD j #[]).foldl op.combine (wV.frame.int wV.arena sl)).toUInt64
      rw [Frame.word_put_int (hp.alike.fits (Frame.fits_of_stacked hp.stacked hh.set)), hlanes, if_pos rfl,
        ← Array.foldl_toList, Array.toList_modify, Op.foldl_modify hop n _ _ _ hL, Array.foldl_toList, hcur]
  · -- another lane, at another accumulator
    have hts : sl ≠ t := fun h => hjj (hl.index_unique hj (h ▸ hj'))
    have hold := hp.lane j' t op' hj' hon'
    refine ⟨hold.set, hold.kind, ?_, ?_⟩
    · show ((wV.lanes.modify j _).getD j' #[]).size = width
      rw [hlanes, if_neg hjj]
      exact hold.size
    · show (wP.frame.put wP.arena sl _).1.word (wP.frame.put wP.arena sl _).2 t =
        (((wV.lanes.modify j _).getD j' #[]).foldl op'.combine (wV.frame.int wV.arena t)).toUInt64
      rw [Frame.word_put_of_ne hts, hlanes, if_neg hjj]
      exact hold.word

end Paired

/-- The slots of a sequential reduction update: the accumulator and those the
contribution reads. -/
theorem Update.Folds.mem_slots {sl : Nat} {op : Op} {contrib : Calc} {node : Nat} {accLeft : Bool}
    {u : Update} (hf : u.Folds sl op contrib node accLeft) {t : Nat} (ht : t ∈ u.slots) :
    t = sl ∨ t ∈ contrib.slots := by
  cases hf <;> simp [Update.slots, Calc.slots] at ht <;> tauto

section Reduce

variable {lanes : List (Nat × Op)} {width : Nat}

/-- A reduction runs in step with its sequential update. -/
theorem lockstep_reduce (hl : LaneList lanes width) (s : Subject) (fuel : Nat) {j sl : Nat} {op : Op}
    {contrib : Calc} {node : Nat} {accLeft : Bool} {seq : Update} (hj : lanes[j]? = some (sl, op))
    (hc : ∀ t ∈ contrib.slots, t ∉ lanes.map Prod.fst) (hf : seq.Folds sl op contrib node accLeft) :
    Lockstep lanes width (Code.exec s width (fuel + 1) (.reduce j sl op contrib node accLeft seq))
      (Code.exec s width (fuel + 1) (.update seq)) := by
  intro wV wP hp
  have hc' : ∀ t ∈ contrib.slots, ¬ wV.Open lanes t := fun t ht => Work.not_open (hc t ht)
  simp only [Code.exec]
  rw [Act.bind_ok (rfl : (get : Act Work) wV = .ok wV wV)]
  cases hon : wV.laneOn.getD j false
  · -- a closed lane: both run the sequential update
    simp only [Bool.not_false, if_true]
    refine Matched.bind (hp.matched_update s seq fun t ht => ?_) fun _ => Lockstep.pure _
    rcases hf.mem_slots ht with rfl | ht
    · rintro ⟨j', op', hj', hon'⟩
      rw [← hl.index_unique hj hj', hon] at hon'
      exact Bool.false_ne_true hon'
    · exact hc' t ht
  · have hh := hp.lane j sl op hj hon
    have hop := hl.op_reduces hj
    simp only [Bool.not_true, Bool.false_eq_true, if_false]
    rw [Act.bind_congr (hf.exec_eq s (hp.alike.slotSet sl ▸ hh.set) (hp.alike.kind sl ▸ hh.kind)
      (hp.reads_eval s contrib hc').right), bind_assoc]
    rcases hp.reads_eval s contrib hc' with ⟨y, hyV, hyP⟩ | ⟨e, heV, heP⟩
    · rw [Act.bind_ok hyV, Act.bind_ok hyP]
      split
      · -- an integer goes into its lane, and into the accumulator of the plain run
        rename_i _ n
        have hv : Value.binary op (if accLeft then .int (wP.frame.int wP.arena sl) else .int n)
            (if accLeft then .int n else .int (wP.frame.int wP.arena sl)) =
            .ok (.int (op.combine (wP.frame.int wP.arena sl) n)) := by
          cases accLeft
          · simp only [Bool.false_eq_true, if_false, Op.binary_int hop, Op.combine_comm hop n]
          · simp only [if_true, Op.binary_int hop]
        rw [hv]
        exact ⟨rfl, hp.accumulate hl hj hon n⟩
      · -- anything else flushes the lane, then updates as written
        obtain ⟨wV', hfl, hp', hclosed, -⟩ := hp.flushLane hl hj
        rw [Act.bind_ok hfl, Act.bind_ok (rfl : Act.int sl wV' = .ok (wV'.frame.int wV'.arena sl) wV'),
          (hp'.alike.int hclosed).symm, bind_assoc]
        cases accLeft
        all_goals
          simp only [if_true, Bool.false_eq_true, if_false]
          exact (Reads.located s node _).bind_matched hp' fun v =>
            (hp'.matched_put hclosed v).bind fun _ => Lockstep.pure _
    · rw [Act.bind_error heV, Act.bind_error heP]
      exact ⟨rfl, hp⟩

end Reduce

/-! ## Opening and closing the lanes -/

/-- A slot reads as an integer when it is set and of kind integer, and then
it reads as its word. -/
theorem Frame.get?_eq_int {f : Frame} {a : Arena} {s : Nat} {n : Int64} (h : f.get? a s = some (.int n)) :
    f.slotSet s = true ∧ f.kind s = .int ∧ n = f.int a s := by
  unfold Frame.get? at h
  split at h
  · rename_i hset
    cases hk : f.kind s <;> simp only [hk, Value.ofBits, Option.some.injEq, reduceCtorEq] at h
    exact ⟨hset, rfl, by cases h; rfl⟩
  · cases h

/-- Flushing a lane always succeeds. -/
theorem flushLane_ok (j sl : Nat) (op : Op) (w : Work) : ∃ w', flushLane j sl op w = .ok () w' := by
  rw [flushLane_eq]
  split
  · exact ⟨_, rfl⟩
  · exact ⟨_, rfl⟩

namespace Paired

variable {lanes : List (Nat × Op)} {width : Nat}

/-- Opening the lanes pairs the state with lanes with the plain one: each
accumulator that holds an integer gets `width` lanes that hold the
identity, so their fold is the accumulator itself. -/
theorem openLanes (hl : LaneList lanes width) {w : Work}
    (hst : Env.Stacked (.frame w.frame :: w.parent) w.arena.size) :
    ∃ w', HotLoop.openLanes lanes width w = .ok () w' ∧ Paired lanes width w' w := by
  refine ⟨_, rfl, rfl, rfl, rfl, Frame.Alike.refl _ _ _, hst, fun j s op hj hon => ?_⟩
  simp only [Array.getD_eq_getD_getElem?, List.getElem?_toArray, List.getElem?_map, hj,
    Option.map_some] at hon ⊢
  -- only an accumulator that holds an integer has open lanes
  cases hg : w.frame.get? w.arena s with
  | none => simp [hg] at hon
  | some v =>
    cases v
    case int n =>
      obtain ⟨hset, hk, -⟩ := Frame.get?_eq_int hg
      refine ⟨hset, hk, by simp [hj, hg], ?_⟩
      simp only [Array.getD_eq_getD_getElem?, List.getElem?_toArray, List.getElem?_map, hj, hg,
        Option.map_some, Option.getD_some]
      rw [← Array.foldl_toList, Array.toList_replicate, Op.foldl_identity (hl.op_reduces hj), Frame.int,
        UInt64.toUInt64_toInt64]
    all_goals simp [hg] at hon

/-- Flushing lanes one after the other, on the side with lanes only, keeps
the runs paired; no lane opens, and every flushed accumulator is closed. -/
theorem flushAll {wP : Work} (hl : LaneList lanes width) {F : Work → (Nat × Op) × Nat → Work}
    (hF : ∀ w p, HotLoop.flushLane p.2 p.1.1 p.1.2 w = .ok () (F w p)) :
    ∀ (ps : List ((Nat × Op) × Nat)) (wV : Work), (∀ p ∈ ps, lanes[p.2]? = some p.1) →
      Paired lanes width wV wP →
      Paired lanes width (ps.foldl F wV) wP ∧
        ∀ t, (ps.foldl F wV).Open lanes t → wV.Open lanes t ∧ ∀ p ∈ ps, p.1.1 ≠ t
  | [], _, _, hp => ⟨hp, fun _ ht => ⟨ht, fun _ h => nomatch h⟩⟩
  | p :: ps, wV, hps, hp => by
    obtain ⟨wV', hfl, hp', hclosed, hmono⟩ := hp.flushLane hl (hps p List.mem_cons_self)
    rw [hF wV p] at hfl
    cases hfl
    obtain ⟨hpr, hopen⟩ := flushAll hl hF ps (F wV p) (fun q hq => hps q (List.mem_cons_of_mem p hq)) hp'
    refine ⟨hpr, fun t ht => ?_⟩
    obtain ⟨ht', hne⟩ := hopen t ht
    refine ⟨hmono t ht', fun q hq => ?_⟩
    rcases List.mem_cons.mp hq with rfl | hq
    · rintro rfl
      exact hclosed ht'
    · exact hne q hq

/-- Closing the lanes leaves no lane open, and the runs paired. -/
theorem closeLanes {wV wP : Work} (hp : Paired lanes width wV wP) (hl : LaneList lanes width) :
    Paired lanes width (HotLoop.closeLanes lanes wV) wP ∧ ∀ t, ¬ (HotLoop.closeLanes lanes wV).Open lanes t := by
  unfold HotLoop.closeLanes
  suffices H : ∀ F : Work → (Nat × Op) × Nat → Work,
      (∀ w p, HotLoop.flushLane p.2 p.1.1 p.1.2 w = .ok () (F w p)) →
      Paired lanes width (lanes.zipIdx.foldl F wV) wP ∧ ∀ t, ¬ (lanes.zipIdx.foldl F wV).Open lanes t by
    refine H _ fun w p => ?_
    obtain ⟨⟨sl, op⟩, j⟩ := p
    rcases flushLane_ok j sl op w with ⟨w', h⟩
    dsimp only
    rw [h]
  intro F hF
  obtain ⟨hpr, hopen⟩ := flushAll hl hF lanes.zipIdx wV (fun p hp => List.mem_zipIdx_iff_getElem?.mp hp) hp
  refine ⟨hpr, fun t ht => ?_⟩
  -- an open accumulator belongs to a reduction, which the fold flushed
  obtain ⟨-, hne⟩ := hopen t ht
  obtain ⟨j, op, hj, -⟩ := ht
  exact hne ((t, op), j) (List.mem_zipIdx_iff_getElem?.mpr hj) rfl

end Paired

/-! ## Whole runs -/

section Runs

variable {lanes : List (Nat × Op)} {width : Nat}

/-- Related statements run in step. -/
theorem lockstep_exec (hl : LaneList lanes width) (s : Subject) :
    ∀ (fuel : Nat) {cV cP : Code}, LaneCode lanes cV cP →
      Lockstep lanes width (Code.exec s width fuel cV) (Code.exec s width fuel cP)
  | 0, _, _, _ => by
    simp only [Code.exec]
    exact Lockstep.throw _
  | fuel + 1, _, _, .put hs => by
    intro wV wP hp
    simp only [Code.exec]
    exact (hp.reads_eval s _ fun t ht => Work.not_open (hs t (List.mem_cons_of_mem _ ht))).bind_matched hp
      fun v => (hp.matched_put (Work.not_open (hs _ List.mem_cons_self)) v).bind fun _ => Lockstep.pure _
  | fuel + 1, _, _, .update hu => by
    intro wV wP hp
    simp only [Code.exec]
    exact (hp.matched_update s _ fun t ht => Work.not_open (hu t ht)).bind fun _ => Lockstep.pure _
  | fuel + 1, _, _, .reduce hj hc hf => lockstep_reduce hl s fuel hj hc hf

/-- Related statement lists run in step. -/
theorem lockstep_execAll (hl : LaneList lanes width) (s : Subject) :
    ∀ (fuel : Nat) {csV csP : List Code}, List.Forall₂ (LaneCode lanes) csV csP →
      Lockstep lanes width (Code.execAll s width fuel csV) (Code.execAll s width fuel csP)
  | 0, _, _, _ => by
    simp only [Code.execAll]
    exact Lockstep.throw _
  | fuel + 1, _, _, .nil => by
    simp only [Code.execAll]
    exact Lockstep.pure _
  | fuel + 1, _, _, .cons hc hcs => by
    simp only [Code.execAll]
    refine Lockstep.bind (lockstep_exec hl s fuel hc) fun sig => ?_
    -- the rest runs after a statement that signals nothing
    cases sig
    case none => exact lockstep_execAll hl s fuel hcs
    all_goals exact Lockstep.pure _

end Runs

/-- `eV` is the counted loop `e0` compiled with lanes: the same prologue,
header and width, the plain loop without lanes, at least one reduction of
the lanes, none of them on the counter, and the bodies related statement by
statement. -/
structure Entry.Laned (eV e0 : Entry) (counter : Nat) : Prop where
  hoisted : eV.hoisted = e0.hoisted
  head_eq : eV.head = e0.head
  head : ∃ unroll, e0.head = .range counter unroll
  width : eV.width = e0.width
  plain : e0.lanes = []
  lanes : LaneList eV.lanes eV.width
  nonempty : eV.lanes ≠ []
  counter : counter ∉ eV.lanes.map Prod.fst
  body : List.Forall₂ (LaneCode eV.lanes) eV.body e0.body

/-- A result of compiled code, with the scratch space of the lanes cleared
from its state. -/
def withoutLanes {α : Type} : EStateM.Result Error Work α → EStateM.Result Error Work α
  | .ok a w => .ok a { w with lanes := #[], laneOn := #[] }
  | .error e w => .error e { w with lanes := #[], laneOn := #[] }

/-- Paired states without open lanes are equal but for the lanes. -/
theorem Paired.eq_of_closed {lanes : List (Nat × Op)} {width : Nat} {wV wP : Work}
    (hp : Paired lanes width wV wP) (hclosed : ∀ t, ¬ wV.Open lanes t) :
    { wV with lanes := #[], laneOn := #[] } = { wP with lanes := #[], laneOn := #[] } := by
  obtain ⟨hf, ha⟩ := (hp.alike.mono fun t ht => hclosed t ht).eq
  have hpar := hp.parent
  have hh := hp.hoist
  have hi := hp.iter
  obtain ⟨fP, pP, aP, hoP, lP, oP, iP⟩ := wP
  dsimp only at hf ha hpar hh hi ⊢
  rw [hf, ha, hpar, hh, hi]

section Entries

variable {eV e0 : Entry} {counter : Nat}

/-- An iteration of the loop with lanes runs in step with one of the plain
loop. -/
theorem lockstep_iteration (hE : Entry.Laned eV e0 counter) (s : Subject) (fuel n : Nat) :
    Lockstep eV.lanes eV.width (eV.iteration s fuel n) (e0.iteration s fuel n) := by
  intro wV wP hp
  have hp' : Paired eV.lanes eV.width { wV with iter := n } { wP with iter := n } :=
    ⟨hp.parent, hp.hoist, rfl, hp.alike, hp.stacked, fun j t op hj hon =>
      have hh := hp.lane j t op hj hon
      ⟨hh.set, hh.kind, hh.size, hh.word⟩⟩
  have hm := lockstep_execAll hE.lanes s fuel hE.body _ _ hp'
  simp only [Entry.iteration]
  rw [← hE.width]
  revert hm
  generalize Code.execAll s eV.width fuel eV.body { wV with iter := n } = rV
  generalize Code.execAll s eV.width fuel e0.body { wP with iter := n } = rP
  rcases rV with ⟨sig, wV'⟩ | ⟨e, wV'⟩ <;> rcases rP with ⟨sig', wP'⟩ | ⟨e', wP'⟩
  · rintro ⟨rfl, hp''⟩
    cases sig <;> exact ⟨rfl, hp''⟩
  · exact False.elim
  · exact False.elim
  · rintro ⟨rfl, hp''⟩
    exact ⟨rfl, hp''⟩

/-- The counted iterations of the loop with lanes run in step with those of
the plain loop. -/
theorem lockstep_range (hE : Entry.Laned eV e0 counter) (s : Subject) (step : Int64) :
    ∀ (fuel : Nat) (cur : Int64) (trips n : Nat),
      Lockstep eV.lanes eV.width (eV.range s counter step fuel cur trips n)
        (e0.range s counter step fuel cur trips n)
  | 0, _, _, _ => by
    simp only [Entry.range]
    exact Lockstep.pure _
  | _ + 1, _, 0, _ => by
    simp only [Entry.range]
    exact Lockstep.pure _
  | fuel + 1, cur, trips + 1, n => by
    simp only [Entry.range]
    refine Lockstep.bind (fun wV wP hp => hp.matched_putInt (Work.not_open hE.counter) cur) fun _ =>
      Lockstep.bind (lockstep_iteration hE s fuel n) fun r => ?_
    cases r with
    | none => exact lockstep_range hE s step fuel (cur + step) trips (n + 1)
    | some r => exact Lockstep.pure _

/-- Lanes are invisible: the counted loop compiled with lanes and the plain
loop, run from the same stacked frame, give the same result, the same
number of iterations or the same error, and end in the same state but for
the scratch space of the lanes. -/
theorem Entry.Laned.run_eq (hE : Entry.Laned eV e0 counter) (s : Subject) (h : Header) (fuel : Nat)
    {w : Work} (hst : Env.Stacked (.frame w.frame :: w.parent) w.arena.size) :
    withoutLanes (eV.run s h fuel w) = withoutLanes (e0.run s h fuel w) := by
  have hpro : eV.prologue s = e0.prologue s := by
    unfold Entry.prologue
    rw [hE.hoisted]
  obtain ⟨u, hhead⟩ := hE.head
  have hne : eV.lanes.isEmpty = false := List.isEmpty_eq_false_iff.mpr hE.nonempty
  unfold Entry.run
  rw [hpro, hE.head_eq, hhead]
  simp only [hE.plain, List.isEmpty_nil, if_true, hne, Bool.false_eq_true, if_false,
    Entry.unrolled_eq_range]
  -- the prologue only hands out the hoisted values
  obtain ⟨w₁, hw₁, hst₁⟩ : ∃ w₁, e0.prologue s w = .ok () w₁ ∧
      Env.Stacked (.frame w₁.frame :: w₁.parent) w₁.arena.size := ⟨_, rfl, hst⟩
  obtain ⟨w₂, hw₂, hp₂⟩ := Paired.openLanes hE.lanes hst₁
  rw [Act.bind_ok hw₁, Act.bind_ok hw₁, Act.bind_ok hw₂]
  have hm := lockstep_range hE s h.step fuel h.start h.trips 0 w₂ w₁ hp₂
  unfold Act.always
  revert hm
  generalize eV.range s counter h.step fuel h.start h.trips 0 w₂ = rV
  generalize e0.range s counter h.step fuel h.start h.trips 0 w₁ = rP
  rcases rV with ⟨p, wV⟩ | ⟨e, wV⟩ <;> rcases rP with ⟨p', wP⟩ | ⟨e', wP⟩
  · rintro ⟨rfl, hp⟩
    obtain ⟨hpc, hclosed⟩ := hp.closeLanes hE.lanes
    simp only [withoutLanes, hpc.eq_of_closed hclosed]
  · exact False.elim
  · exact False.elim
  · rintro ⟨rfl, hp⟩
    obtain ⟨hpc, hclosed⟩ := hp.closeLanes hE.lanes
    simp only [withoutLanes, hpc.eq_of_closed hclosed]

end Entries

end HotLoop
