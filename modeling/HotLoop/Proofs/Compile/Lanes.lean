import HotLoop.Proofs.Memory.Store
import HotLoop.Compile.Run
/-!
# HotLoop.Proofs.Compile.Lanes

Vector lanes are invisible. A counted loop whose body is made of integer
reductions and writes of temporaries may keep `width` partial results per
reduction; the accumulator's slot keeps its entry value while its lanes are
open, and the lanes are folded into it when a contribution is not an
integer or when the loop ends. The run with lanes and the plain run end in
the same state, but for the scratch space of the lanes.

The proof is a simulation in lock step.

* `Frame.Alike O` relates two frames over two arenas that hold the same
  slots but those of `O`: the same bookkeeping, the same heap words and the
  same arena bytes outside the words of `O`.
-/

namespace HotLoop

/-! ## Frames that differ in some slots -/

namespace Frame

/-- The word of slot `s` lies inside the arena, or inside the heap for a
frame without arena slots. -/
def Fits (f : Frame) (a : Arena) (s : Nat) : Prop :=
  (∀ b, f.base = some b → b + 8 * s + 8 ≤ a.size) ∧ (f.base = none → s < f.heap.size)

/-- The indices of arena bytes outside the words of the slots `O` of a frame
whose slot 0 is at `base`. -/
def Outside (O : Nat → Prop) (base : Option Nat) (i : Nat) : Prop :=
  ∀ b, base = some b → ∀ s, O s → i < b + 8 * s ∨ b + 8 * s + 8 ≤ i

/-- `fP` over `aP` holds what `fV` over `aV` holds but in the slots `O`:
the same bookkeeping, the same heap words outside `O`, and the same arena
bytes outside the words of `O`. -/
structure Alike (O : Nat → Prop) (fV : Frame) (aV : Arena) (fP : Frame) (aP : Arena) : Prop where
  rest : ∀ h, { fP with heap := h } = { fV with heap := h }
  heap_size : fP.heap.size = fV.heap.size
  heap : ∀ s, (fV.base = none → ¬ O s) → fP.heap.getD s 0 = fV.heap.getD s 0
  arena : aV.Agree (Outside O fV.base) aP

namespace Alike

variable {O O' : Nat → Prop} {fV fP : Frame} {aV aP : Arena} {s : Nat}

theorem refl (O : Nat → Prop) (f : Frame) (a : Arena) : Alike O f a f a :=
  ⟨fun _ => rfl, rfl, fun _ _ => rfl, .refl _ a⟩

/-- Letting more slots differ keeps two frames alike. -/
theorem mono (h : Alike O fV aV fP aP) (hO : ∀ s, O s → O' s) : Alike O' fV aV fP aP where
  rest := h.rest
  heap_size := h.heap_size
  heap s hs := h.heap s fun hb hO' => hs hb (hO s hO')
  arena := h.arena.mono fun _ hi b hb s hs => hi b hb s (hO s hs)

theorem eq_heap (h : Alike O fV aV fP aP) : fP = { fV with heap := fP.heap } := h.rest fP.heap

theorem base (h : Alike O fV aV fP aP) : fP.base = fV.base := by rw [h.eq_heap]

theorem isSet (h : Alike O fV aV fP aP) : fP.isSet = fV.isSet := by rw [h.eq_heap]

theorem kinds (h : Alike O fV aV fP aP) : fP.kinds = fV.kinds := by rw [h.eq_heap]

theorem arrays (h : Alike O fV aV fP aP) : fP.arrays = fV.arrays := by rw [h.eq_heap]

theorem slotSet (h : Alike O fV aV fP aP) (s : Nat) : fP.slotSet s = fV.slotSet s := by
  simp only [Frame.slotSet, h.isSet]

theorem kind (h : Alike O fV aV fP aP) (s : Nat) : fP.kind s = fV.kind s := by
  simp only [Frame.kind, h.kinds]

/-- A slot outside `O` holds the same word. -/
theorem word (h : Alike O fV aV fP aP) (hs : ¬ O s) : fP.word aP s = fV.word aV s := by
  unfold Frame.word
  rw [h.base]
  cases hb : fV.base with
  | none => exact h.heap s fun _ => hs
  | some b =>
    -- the word of `s` lies outside the words of the other slots
    apply h.arena.word
    intro k hk b' hb' s' hs'
    rw [hb] at hb'
    cases hb'
    have hne : s' ≠ s := fun he => hs (he ▸ hs')
    omega

theorem get? (h : Alike O fV aV fP aP) (hs : ¬ O s) : fP.get? aP s = fV.get? aV s := by
  simp only [Frame.get?, h.slotSet, h.kind, h.arrays, h.word hs]

theorem int (h : Alike O fV aV fP aP) (hs : ¬ O s) : fP.int aP s = fV.int aV s := by
  simp only [Frame.int, h.word hs]

theorem getD_set! {a : Array UInt64} {s : Nat} (hs : s < a.size) (t : Nat) (x : UInt64) :
    (a.set! s x).getD t 0 = if s = t then x else a.getD t 0 := by
  simp only [Array.getD_eq_getD_getElem?, Array.set!_eq_setIfInBounds, Array.getElem?_setIfInBounds]
  by_cases hst : s = t
  · subst hst
    simp [hs]
  · simp [hst]

/-- The same word written keeps two frames alike. -/
theorem putWord (h : Alike O fV aV fP aP) (s : Nat) (w : UInt64) :
    Alike O (fV.putWord aV s w).1 (fV.putWord aV s w).2 (fP.putWord aP s w).1 (fP.putWord aP s w).2 := by
  obtain ⟨H, rfl⟩ : ∃ H, fP = { fV with heap := H } := ⟨_, h.eq_heap⟩
  obtain ⟨shape, vars, base, heap, kinds, isSet, arrays, extra, exhausted, mark, depth, live⟩ := fV
  unfold Frame.putWord
  cases base with
  | some b => exact ⟨fun _ => rfl, h.heap_size, h.heap, h.arena.putWord _ _⟩
  | none =>
    refine ⟨fun _ => rfl, by simp only [Array.size_set!, h.heap_size], fun t ht => ?_, h.arena⟩
    show (H.set! s w).getD t 0 = (heap.set! s w).getD t 0
    by_cases hs : s < heap.size
    · rw [getD_set! (h.heap_size ▸ hs), getD_set! hs, h.heap t ht]
    · have hs' : ¬ s < H.size := by rw [h.heap_size]; exact hs
      simp only [Array.set!_eq_setIfInBounds, Array.setIfInBounds, hs, hs', dite_false]
      exact h.heap t ht

/-- The same bookkeeping of a slot keeps two frames alike. -/
theorem mark (h : Alike O fV aV fP aP) (s : Nat) (k : Kind) :
    Alike O { fV with isSet := fV.isSet.set! s true, kinds := fV.kinds.set! s k } aV
      { fP with isSet := fP.isSet.set! s true, kinds := fP.kinds.set! s k } aP := by
  obtain ⟨H, rfl⟩ : ∃ H, fP = { fV with heap := H } := ⟨_, h.eq_heap⟩
  exact ⟨fun _ => rfl, h.heap_size, h.heap, h.arena⟩

/-- The same put keeps two frames alike. -/
theorem put (h : Alike O fV aV fP aP) (s : Nat) (v : Value) :
    Alike O (fV.put aV s v).1 (fV.put aV s v).2 (fP.put aP s v).1 (fP.put aP s v).2 := by
  have hm := h.mark s v.kind
  unfold Frame.put
  split
  · rename_i es
    obtain ⟨H, hH⟩ : ∃ H, fP = { fV with heap := H } := ⟨_, h.eq_heap⟩
    subst hH
    exact ⟨fun _ => rfl, hm.heap_size, hm.heap, hm.arena⟩
  · exact hm.putWord s _

/-- Marking again what a slot already holds changes nothing. -/
theorem mark_self {f : Frame} (hset : f.slotSet s = true) (hk : f.kind s = .int) :
    { f with isSet := f.isSet.set! s true, kinds := f.kinds.set! s .int } = f := by
  have hs : s < f.isSet.size := by
    by_contra hs
    simp [Frame.slotSet, Array.getD, hs] at hset
  have hs' : s < f.kinds.size := by
    by_contra hs'
    simp [Frame.kind, Array.getD, hs'] at hk
  have hi : f.isSet.set! s true = f.isSet := by
    simp only [Frame.slotSet, Array.getD, hs, dite_true] at hset
    simp [Array.set!_eq_setIfInBounds, Array.setIfInBounds, hs, ← hset]
  have hk' : f.kinds.set! s .int = f.kinds := by
    simp only [Frame.kind, Array.getD, hs', dite_true] at hk
    simp [Array.set!_eq_setIfInBounds, Array.setIfInBounds, hs', ← hk]
  rw [hi, hk']

/-- An integer put into a slot that already holds an integer only writes
its word. -/
theorem put_int_eq {f : Frame} {a : Arena} (hset : f.slotSet s = true) (hk : f.kind s = .int)
    (n : Int64) : f.put a s (.int n) = f.putWord a s n.toUInt64 := by
  show ({ f with isSet := f.isSet.set! s true, kinds := f.kinds.set! s .int }).putWord a s n.toUInt64 = _
  rw [mark_self hset hk]

/-- An integer put into a slot of `O` on one side only keeps the frames alike. -/
theorem put_right (h : Alike O fV aV fP aP) (hs : O s) (hset : fV.slotSet s = true)
    (hk : fV.kind s = .int) (n : Int64) :
    Alike O fV aV (fP.put aP s (.int n)).1 (fP.put aP s (.int n)).2 := by
  obtain ⟨H, rfl⟩ : ∃ H, fP = { fV with heap := H } := ⟨_, h.eq_heap⟩
  have hmark := put_int_eq (f := { fV with heap := H }) (a := aP) hset hk n
  rw [hmark]
  obtain ⟨shape, vars, base, heap, kinds, isSet, arrays, extra, exhausted, mark, depth, live⟩ := fV
  unfold Frame.putWord
  cases base with
  | some b =>
    refine ⟨fun _ => rfl, h.heap_size, h.heap, h.arena.putWord_right fun i hi => ?_⟩
    exact hi b rfl s hs
  | none =>
    refine ⟨fun _ => rfl, by simp only [Array.size_set!, h.heap_size], fun t ht => ?_, h.arena⟩
    have hts : s ≠ t := fun he => ht rfl (he ▸ hs)
    show (H.set! s n.toUInt64).getD t 0 = heap.getD t 0
    by_cases hsz : s < H.size
    · rw [getD_set! hsz, if_neg hts, h.heap t ht]
    · simp only [Array.set!_eq_setIfInBounds, Array.setIfInBounds, hsz, dite_false]
      exact h.heap t ht

/-- Writing on one side the integer that the other side holds in a slot of
`O` takes the slot out of `O`. The word must fit, so that it reads back. -/
theorem close (h : Alike O fV aV fP aP) (hs : O s) (hset : fV.slotSet s = true)
    (hk : fV.kind s = .int) (hfit : fV.Fits aV s) {n : Int64} (hw : fP.word aP s = n.toUInt64) :
    Alike (fun t => O t ∧ t ≠ s) (fV.putInt aV s n).1 (fV.putInt aV s n).2 fP aP := by
  have hput : fV.putInt aV s n = fV.putWord aV s n.toUInt64 := by
    show ({ fV with isSet := fV.isSet.set! s true, kinds := fV.kinds.set! s .int }).putWord aV s
      n.toUInt64 = _
    rw [mark_self hset hk]
  rw [hput]
  obtain ⟨H, rfl⟩ : ∃ H, fP = { fV with heap := H } := ⟨_, h.eq_heap⟩
  obtain ⟨shape, vars, base, heap, kinds, isSet, arrays, extra, exhausted, mark, depth, live⟩ := fV
  unfold Frame.putWord
  cases base with
  | some b =>
    have hin : b + 8 * s + 8 ≤ aV.size := hfit.1 b rfl
    refine ⟨fun _ => rfl, h.heap_size, fun t _ => h.heap t (fun hb => by cases hb), ?_⟩
    refine ⟨fun b' => by rw [Arena.putWord_rest]; exact h.arena.rest b', by
      rw [Arena.size_putWord]; exact h.arena.size, fun i hi => ?_⟩
    by_cases hi' : b + 8 * s ≤ i ∧ i < b + 8 * s + 8
    · -- the bytes of the word written are those of the word the other side holds
      obtain ⟨k, rfl⟩ : ∃ k, i = b + 8 * s + k := ⟨i - (b + 8 * s), by omega⟩
      have hw' : aP.word (b + 8 * s) = n.toUInt64 := hw
      rw [Arena.get!_putWord_of_lt hin (by omega), ← Arena.byte_word (h.arena.size ▸ hin) (by omega),
        hw']
    · rw [Arena.get!_putWord_of_outside (by omega)]
      refine h.arena.bytes i fun b' hb' s' hs' => ?_
      cases hb'
      by_cases hss : s' = s
      · subst hss
        omega
      · exact hi b rfl s' ⟨hs', hss⟩
  | none =>
    have hsz : s < heap.size := hfit.2 rfl
    refine ⟨fun _ => rfl, by simp only [Array.size_set!, h.heap_size], fun t ht => ?_,
      h.arena.mono fun _ _ b hb => (by cases hb)⟩
    show H.getD t 0 = (heap.set! s n.toUInt64).getD t 0
    rw [getD_set! hsz]
    by_cases hts : s = t
    · subst hts
      rw [if_pos rfl]
      exact hw
    · rw [if_neg hts]
      exact h.heap t fun _ hO => ht rfl ⟨hO, Ne.symm hts⟩

/-- Frames alike in every slot are equal, and so are their arenas. -/
theorem eq (h : Alike (fun _ => False) fV aV fP aP) : fP = fV ∧ aP = aV := by
  have hheap : fP.heap = fV.heap := by
    apply Array.ext h.heap_size
    intro i hi hi'
    have := h.heap i fun _ h => h
    simp only [Array.getD, hi, hi', dite_true] at this
    exact this
  refine ⟨?_, (h.arena.mono fun _ _ => fun _ _ _ hs => hs.elim).eq⟩
  calc fP = { fV with heap := fP.heap } := h.eq_heap
    _ = fV := by rw [hheap]

end Alike

end Frame

/-! ## Puts into other slots -/

namespace Frame

variable {f : Frame} {a : Arena} {s t : Nat} {v : Value}

theorem slotSet_put_of_ne (h : s ≠ t) : (f.put a s v).1.slotSet t = f.slotSet t := by
  rcases put_cases f a s v with ⟨_, _, hp⟩ | ⟨_, _, _, hp⟩ | ⟨_, _, hp⟩ <;> rw [hp] <;>
    simp [slotSet, Array.getD_eq_getD_getElem?, Array.set!_eq_setIfInBounds, h]

theorem kind_put_of_ne (h : s ≠ t) : (f.put a s v).1.kind t = f.kind t := by
  rcases put_cases f a s v with ⟨_, _, hp⟩ | ⟨_, _, _, hp⟩ | ⟨_, _, hp⟩ <;> rw [hp] <;>
    simp [kind, Array.getD_eq_getD_getElem?, Array.set!_eq_setIfInBounds, h]

theorem word_put_of_ne (h : s ≠ t) : (f.put a s v).1.word (f.put a s v).2 t = f.word a t := by
  rcases put_cases f a s v with ⟨_, _, hp⟩ | ⟨_, b, hb, hp⟩ | ⟨_, hb, hp⟩ <;> rw [hp]
  · rfl
  · have hw : b + 8 * t + 8 ≤ b + 8 * s ∨ b + 8 * s + 8 ≤ b + 8 * t := by omega
    simp [word, hb, Arena.word_putWord_of_disjoint hw]
  · simp [word, hb, Array.getD_eq_getD_getElem?, Array.set!_eq_setIfInBounds, h]

theorem int_put_of_ne (h : s ≠ t) : (f.put a s v).1.int (f.put a s v).2 t = f.int a t := by
  simp only [Frame.int, word_put_of_ne h]

/-- An integer put into a slot whose word fits reads back as its word. -/
theorem word_put_int (hfit : f.Fits a s) (n : Int64) :
    (f.put a s (.int n)).1.word (f.put a s (.int n)).2 s = n.toUInt64 := by
  rcases put_cases f a s (.int n) with ⟨_, h, _⟩ | ⟨_, b, hb, hp⟩ | ⟨_, hb, hp⟩
  · cases h
  · rw [hp]
    simp only [word, hb]
    exact Arena.word_putWord_self (hfit.1 b hb)
  · rw [hp]
    simp only [word, hb]
    simp [Array.getD_eq_getD_getElem?, Array.set!_eq_setIfInBounds, hfit.2 hb]
    rfl

end Frame

/-! ## Environments over arenas that agree -/

namespace Frame

variable {f : Frame} {a a' : Arena} {Q : Nat → Prop} {s : Nat} {v : Value}

/-- A put leaves a frame that does not depend on the arena. -/
theorem put_fst (a a' : Arena) : (f.put a s v).1 = (f.put a' s v).1 := by
  unfold Frame.put Frame.putWord
  split
  · rfl
  · dsimp only
    split <;> rfl

/-- The same put keeps two arenas agreeing. -/
theorem put_agree (h : a.Agree Q a') : (f.put a s v).2.Agree Q (f.put a' s v).2 := by
  unfold Frame.put Frame.putWord
  split
  · exact h
  · dsimp only
    split
    · exact h.putWord _ _
    · exact h

end Frame

namespace Env

variable {a a' : Arena} {Q : Nat → Prop} {n : String} {v : Value}

/-- Lookups through a stacked environment read alike in arenas that agree
below its frames. -/
theorem lookup_agree {E : Env} {t : Nat} (hE : E.Stacked t) (h : a.Agree Q a')
    (hQ : ∀ i < t, Q i) : lookup a' E n = lookup a E n :=
  lookup_congr hE fun o ho => h.word fun k hk => hQ _ (by omega)

/-- An assignment done in two arenas that agree gives the same environment and
arenas that still agree. -/
theorem assign_agree (h : a.Agree Q a') : ∀ E : Env,
    Option.Rel (fun p p' => p'.1 = p.1 ∧ p.2.Agree Q p'.2) (assign a E n v) (assign a' E n v)
  | [] => .none
  | .scope b :: rest => by
    have ih := assign_agree h rest
    rw [assign_scope, assign_scope]
    split
    · exact .some ⟨rfl, h⟩
    · generalize assign a rest n v = r at ih ⊢
      generalize assign a' rest n v = r' at ih ⊢
      cases ih with
      | none => exact .none
      | some hrr => exact .some ⟨congrArg (_ :: ·) hrr.1, hrr.2⟩
  | .frame fr :: rest => by
    have ih := assign_agree h rest
    simp only [assign]
    split
    · exact .some ⟨by rw [Frame.put_fst a a'], Frame.put_agree h⟩
    · split
      · exact .some ⟨rfl, h⟩
      · generalize assign a rest n v = r at ih ⊢
        generalize assign a' rest n v = r' at ih ⊢
        cases ih with
        | none => exact .none
        | some hrr => exact .some ⟨congrArg (_ :: ·) hrr.1, hrr.2⟩

end Env

/-! ## A run with lanes against a plain run -/

/-- The accumulator slots and operators of the reductions, as the compiled
loop lists them: distinct slots, wrapping `+` or `*`, over at least one
lane. -/
structure LaneList (lanes : List (Nat × Op)) (width : Nat) : Prop where
  nodup : (lanes.map Prod.fst).Nodup
  ops : ∀ p ∈ lanes, p.2 = .add ∨ p.2 = .mul
  width_pos : 0 < width

/-- Slot `s` is the accumulator of a reduction whose lanes are open. -/
def Work.Open (w : Work) (lanes : List (Nat × Op)) (s : Nat) : Prop :=
  ∃ j op, lanes[j]? = some (s, op) ∧ w.laneOn.getD j false = true

/-- What an open lane `j` for the accumulator in slot `s` keeps: the slot
holds an integer on the side with lanes, there are `width` partial results,
and the plain side holds the partial results folded into that integer. -/
structure LaneHolds (width : Nat) (wV wP : Work) (j s : Nat) (op : Op) : Prop where
  set : wV.frame.slotSet s = true
  kind : wV.frame.kind s = .int
  size : (wV.lanes.getD j #[]).size = width
  word : wP.frame.word wP.arena s =
    ((wV.lanes.getD j #[]).foldl op.combine (wV.frame.int wV.arena s)).toUInt64

/-- The run with lanes in `wV` and the plain run in `wP` are in step: the
same enclosing environment, hoisted values and iteration, frames alike but
in the accumulators of open lanes, each of which holds in the plain run the
fold of its lanes. -/
structure Paired (lanes : List (Nat × Op)) (width : Nat) (wV wP : Work) : Prop where
  parent : wP.parent = wV.parent
  hoist : wP.hoist = wV.hoist
  iter : wP.iter = wV.iter
  alike : wV.frame.Alike (wV.Open lanes) wV.arena wP.frame wP.arena
  stacked : Env.Stacked (.frame wV.frame :: wV.parent) wV.arena.size
  lane : ∀ j s op, lanes[j]? = some (s, op) → wV.laneOn.getD j false = true →
    LaneHolds width wV wP j s op

/-- Two results in step: the same value or the same error, from paired
states. -/
def Matched {α : Type} (lanes : List (Nat × Op)) (width : Nat) :
    EStateM.Result Error Work α → EStateM.Result Error Work α → Prop
  | .ok a wV, .ok b wP => a = b ∧ Paired lanes width wV wP
  | .error e wV, .error e' wP => e = e' ∧ Paired lanes width wV wP
  | _, _ => False

/-- Two computations in step from every pair of paired states. -/
def Lockstep {α : Type} (lanes : List (Nat × Op)) (width : Nat) (xV xP : Act α) : Prop :=
  ∀ wV wP, Paired lanes width wV wP → Matched lanes width (xV wV) (xP wP)

/-- `x` only reads, and reads alike in `wV` and `wP`. -/
def Reads {α : Type} (x : Act α) (wV wP : Work) : Prop :=
  (∃ a, x wV = .ok a wV ∧ x wP = .ok a wP) ∨ (∃ e, x wV = .error e wV ∧ x wP = .error e wP)

section Reading

variable {α β : Type} {wV wP : Work}

theorem Reads.pure (a : α) : Reads (pure a : Act α) wV wP := .inl ⟨a, rfl, rfl⟩

theorem Reads.throw (e : Error) : Reads (throw e : Act α) wV wP := .inr ⟨e, rfl, rfl⟩

theorem Reads.bind {x : Act α} {f : α → Act β} (hx : Reads x wV wP) (hf : ∀ a, Reads (f a) wV wP) :
    Reads (x >>= f) wV wP := by
  have hbind : ∀ w, (x >>= f) w = EStateM.bind x f w := fun _ => rfl
  rcases hx with ⟨a, hV, hP⟩ | ⟨e, hV, hP⟩
  · rcases hf a with ⟨b, hV', hP'⟩ | ⟨e, hV', hP'⟩
    · exact .inl ⟨b, by rw [hbind, EStateM.bind, hV]; exact hV', by
        rw [hbind, EStateM.bind, hP]; exact hP'⟩
    · exact .inr ⟨e, by rw [hbind, EStateM.bind, hV]; exact hV', by
        rw [hbind, EStateM.bind, hP]; exact hP'⟩
  · exact .inr ⟨e, by rw [hbind, EStateM.bind, hV], by rw [hbind, EStateM.bind, hP]⟩

theorem Reads.located (s : Subject) (node : Nat) (r : Except Error Value) :
    Reads (Act.located s node r) wV wP := by
  cases r with
  | ok v => exact Reads.pure v
  | error e => exact Reads.throw _

end Reading

mutual
/-- The slots compiled code reads. -/
def Calc.slots : Calc → List Nat
  | .const _ | .hoisted _ => []
  | .array es => Calc.slotsAll es
  | .var _ slot _ => slot.toList
  | .logic _ _ x y _ | .scaled _ _ _ x y _ | .binary _ x y _ | .index x y _ => x.slots ++ y.slots
  | .unary _ x _ => x.slots

/-- The slots a list of compiled expressions reads. -/
def Calc.slotsAll : List Calc → List Nat
  | [] => []
  | c :: cs => c.slots ++ Calc.slotsAll cs
end

section Steps

variable {α β : Type} {lanes : List (Nat × Op)} {width : Nat} {wV wP : Work}

/-- A read done in both runs, then computations in step. -/
theorem Reads.bind_matched {x : Act α} {f g : α → Act β} (hx : Reads x wV wP)
    (hp : Paired lanes width wV wP) (hf : ∀ a, Matched lanes width (f a wV) (g a wP)) :
    Matched lanes width ((x >>= f) wV) ((x >>= g) wP) := by
  have hbind : ∀ (h : α → Act β) w, (x >>= h) w = EStateM.bind x h w := fun _ _ => rfl
  rw [hbind, hbind, EStateM.bind, EStateM.bind]
  rcases hx with ⟨a, hV, hP⟩ | ⟨e, hV, hP⟩
  · rw [hV, hP]
    exact hf a
  · rw [hV, hP]
    exact ⟨rfl, hp⟩

theorem Matched.bind {xV xP : Act α} {f g : α → Act β} (hx : Matched lanes width (xV wV) (xP wP))
    (hf : ∀ a, Lockstep lanes width (f a) (g a)) :
    Matched lanes width ((xV >>= f) wV) ((xP >>= g) wP) := by
  have hbind : ∀ (x : Act α) (h : α → Act β) w, (x >>= h) w = EStateM.bind x h w :=
    fun _ _ _ => rfl
  rw [hbind, hbind, EStateM.bind, EStateM.bind]
  revert hx
  cases xV wV <;> cases xP wP
  · rintro ⟨rfl, hp⟩
    exact hf _ _ _ hp
  · intro h; exact h.elim
  · intro h; exact h.elim
  · rintro ⟨rfl, hp⟩
    exact ⟨rfl, hp⟩

theorem Lockstep.pure (a : α) : Lockstep lanes width (pure a : Act α) (pure a) :=
  fun _ _ hp => ⟨rfl, hp⟩

theorem Lockstep.throw (e : Error) : Lockstep lanes width (throw e : Act α) (throw e) :=
  fun _ _ hp => ⟨rfl, hp⟩

theorem Lockstep.bind {xV xP : Act α} {f g : α → Act β} (hx : Lockstep lanes width xV xP)
    (hf : ∀ a, Lockstep lanes width (f a) (g a)) : Lockstep lanes width (xV >>= f) (xP >>= g) :=
  fun wV wP hp => (hx wV wP hp).bind hf

end Steps

/-- The slots an assignment reads or writes. -/
def Update.slots : Update → List Nat
  | .store _ slot _ v => slot.toList ++ v.slots
  | .compound _ slot _ _ rhs _ => slot.toList ++ rhs.slots

namespace Paired

variable {lanes : List (Nat × Op)} {width : Nat} {wV wP : Work}

/-- The enclosing environment reads alike: its frames lie below the words of
the loop's frame. -/
theorem lookup (hp : Paired lanes width wV wP) (n : String) :
    wP.parent.lookup wP.arena n = wV.parent.lookup wV.arena n := by
  obtain ⟨t, -, hrest, hb⟩ := hp.stacked.frame_rest
  rw [hp.parent]
  refine Env.lookup_agree hrest hp.alike.arena fun i hi b hbs s _ => ?_
  have := (hb b hbs).1
  omega

theorem reads_get? (hp : Paired lanes width wV wP) {sl : Nat} (hs : ¬ wV.Open lanes sl) :
    Reads (Act.get? sl) wV wP :=
  .inl ⟨_, rfl, by rw [Act.get?, hp.alike.get? hs]⟩

theorem reads_lookup (hp : Paired lanes width wV wP) (s : Subject) (i node : Nat) :
    Reads (Act.lookup s i node) wV wP := by
  unfold Reads Act.lookup
  rw [hp.lookup]
  cases Env.lookup wV.arena wV.parent (s.name i) with
  | some v => exact .inl ⟨v, rfl, rfl⟩
  | none => exact .inr ⟨_, rfl, rfl⟩

theorem reads_read (hp : Paired lanes width wV wP) (s : Subject) (i : Nat) {slot : Option Nat}
    (hs : ∀ sl ∈ slot.toList, ¬ wV.Open lanes sl) (node : Nat) :
    Reads (Act.read s i slot node) wV wP := by
  unfold Act.read
  cases slot with
  | none => exact hp.reads_lookup s i node
  | some sl =>
    refine (hp.reads_get? (hs sl (by simp))).bind fun r => ?_
    split
    · exact Reads.pure _
    · exact hp.reads_lookup s i node

mutual
/-- Compiled code that reads no accumulator of an open lane reads alike. -/
theorem reads_eval (hp : Paired lanes width wV wP) (s : Subject) :
    (c : Calc) → (∀ t ∈ c.slots, ¬ wV.Open lanes t) → Reads (c.eval s) wV wP
  | .const v, _ => by simp only [Calc.eval]; exact Reads.pure v
  | .hoisted k, _ => by
    unfold Reads
    simp only [Calc.eval]
    rw [hp.hoist]
    rcases wV.hoist[k]? with _ | _ | _
    · exact .inl ⟨_, rfl, rfl⟩
    · exact .inr ⟨_, rfl, rfl⟩
    · exact .inl ⟨_, rfl, rfl⟩
  | .array es, hc => by
    simp only [Calc.eval]
    exact (reads_evalAll hp s es hc).bind fun _ => Reads.pure _
  | .var i slot node, hc => by
    simp only [Calc.eval]
    exact hp.reads_read s i hc node
  | .logic short op x y node, hc => by
    simp only [Calc.slots, List.mem_append] at hc
    simp only [Calc.eval]
    refine (reads_eval hp s x fun t ht => hc t (.inl ht)).bind fun a => ?_
    split
    · exact Reads.pure _
    · exact (reads_eval hp s y fun t ht => hc t (.inr ht)).bind fun _ => Reads.located s node _
  | .scaled op shifts litLeft x y node, hc => by
    simp only [Calc.slots, List.mem_append] at hc
    simp only [Calc.eval]
    refine (reads_eval hp s x fun t ht => hc t (.inl ht)).bind fun a =>
      (reads_eval hp s y fun t ht => hc t (.inr ht)).bind fun b => ?_
    split
    · exact Reads.pure _
    · exact Reads.located s node _
  | .binary op x y node, hc => by
    simp only [Calc.slots, List.mem_append] at hc
    simp only [Calc.eval]
    exact (reads_eval hp s x fun t ht => hc t (.inl ht)).bind fun _ =>
      (reads_eval hp s y fun t ht => hc t (.inr ht)).bind fun _ => Reads.located s node _
  | .unary op x node, hc => by
    simp only [Calc.slots] at hc
    simp only [Calc.eval]
    exact (reads_eval hp s x hc).bind fun _ => Reads.located s node _
  | .index x i node, hc => by
    simp only [Calc.slots, List.mem_append] at hc
    simp only [Calc.eval]
    exact (reads_eval hp s x fun t ht => hc t (.inl ht)).bind fun _ =>
      (reads_eval hp s i fun t ht => hc t (.inr ht)).bind fun _ => Reads.located s node _

theorem reads_evalAll (hp : Paired lanes width wV wP) (s : Subject) :
    (cs : List Calc) → (∀ t ∈ Calc.slotsAll cs, ¬ wV.Open lanes t) → Reads (Calc.evalAll s cs) wV wP
  | [], _ => by simp only [Calc.evalAll]; exact Reads.pure _
  | c :: cs, hc => by
    simp only [Calc.slotsAll, List.mem_append] at hc
    simp only [Calc.evalAll]
    exact (reads_eval hp s c fun t ht => hc t (.inl ht)).bind fun _ =>
      (reads_evalAll hp s cs fun t ht => hc t (.inr ht)).bind fun _ => Reads.pure _
end

/-- The same put into a slot that is no open accumulator keeps the runs in
step. -/
theorem put (hp : Paired lanes width wV wP) {sl : Nat} (hs : ¬ wV.Open lanes sl) (v : Value) :
    Paired lanes width
      { wV with frame := (wV.frame.put wV.arena sl v).1, arena := (wV.frame.put wV.arena sl v).2 }
      { wP with frame := (wP.frame.put wP.arena sl v).1, arena := (wP.frame.put wP.arena sl v).2 } where
  parent := hp.parent
  hoist := hp.hoist
  iter := hp.iter
  alike := hp.alike.put sl v
  stacked := by
    obtain ⟨hf, hsome, hnone⟩ := Env.stacked_frame.mp hp.stacked
    refine Env.stacked_frame.mpr ⟨Frame.sound_put hf, fun b hb => ?_, fun hb => ?_⟩
    · rw [Frame.put_base] at hb
      rw [Frame.put_numSlots, Frame.size_put]
      exact hsome b hb
    · rw [Frame.put_base] at hb
      rw [Frame.size_put]
      exact hnone hb
  lane j t op hj hon := by
    have hl := hp.lane j t op hj hon
    -- the accumulator of an open lane is another slot
    have hts : sl ≠ t := fun he => hs ⟨j, op, he ▸ hj, hon⟩
    exact ⟨by rw [Frame.slotSet_put_of_ne hts]; exact hl.set,
      by rw [Frame.kind_put_of_ne hts]; exact hl.kind, hl.size,
      by rw [Frame.word_put_of_ne hts, Frame.int_put_of_ne hts]; exact hl.word⟩

/-- An assignment through the enclosing environment, done in both runs, keeps
them in step: it writes only below the loop's frame. -/
theorem viaParent (hp : Paired lanes width wV wP) (s : Subject) (i node : Nat) (v : Value) :
    Matched lanes width (Act.write.viaParent s i node v wV) (Act.write.viaParent s i node v wP) := by
  obtain ⟨t, ht, hrest, hb⟩ := hp.stacked.frame_rest
  have hrel := Env.assign_agree (n := s.name i) (v := v) hp.alike.arena wV.parent
  unfold Act.write.viaParent
  rw [hp.parent]
  generalize hV : wV.parent.assign wV.arena (s.name i) v = rV at hrel
  generalize hP : wV.parent.assign wP.arena (s.name i) v = rP at hrel
  cases hrel with
  | none => exact ⟨rfl, hp⟩
  | @some pV pP hpp =>
    obtain ⟨E', aV'⟩ := pV
    obtain ⟨E'', aP'⟩ := pP
    obtain ⟨rfl, hagree⟩ := hpp
    have hsz : t ≤ wV.arena.size := ht
    obtain ⟨hst, hszV, hwV⟩ := Env.assign_footprint hrest hsz hV
    have hszP : t ≤ wP.arena.size := by rw [hp.alike.arena.size]; exact hsz
    obtain ⟨-, -, hwP⟩ := Env.assign_footprint hrest hszP hP
    -- the frame's words lie at or above `t`, where neither arena changed
    have habove : ∀ (a a' : Arena), (∀ o, t ≤ o → a'.word o = a.word o) → ∀ (f : Frame),
        f.base = wV.frame.base → ∀ sl, f.word a' sl = f.word a sl := by
      intro a a' hw f hfb sl
      unfold Frame.word
      rw [hfb]
      cases hbase : wV.frame.base with
      | none => rfl
      | some b => exact hw _ (by have := (hb b hbase).1; omega)
    refine ⟨rfl, ⟨rfl, hp.hoist, hp.iter, ⟨hp.alike.rest, hp.alike.heap_size, hp.alike.heap, hagree⟩,
      ?_, fun j sl op hj hon => ?_⟩⟩
    · obtain ⟨hf, hsome, hnone⟩ := Env.stacked_frame.mp hp.stacked
      refine Env.stacked_frame.mpr ⟨hf, fun b hbs => ?_, fun hbs => ?_⟩
      · obtain ⟨rfl, -⟩ := hb b hbs
        exact ⟨hszV ▸ (hsome _ hbs).1, hst⟩
      · rw [hszV]
        exact hst.mono ht
    · have hl := hp.lane j sl op hj hon
      refine ⟨hl.set, hl.kind, hl.size, ?_⟩
      show wP.frame.word aP' sl = _
      rw [habove _ _ hwP wP.frame hp.alike.base]
      have hint : wV.frame.int aV' sl = wV.frame.int wV.arena sl := by
        simp only [Frame.int, habove _ _ hwV wV.frame rfl]
      rw [hint]
      exact hl.word

theorem matched_put (hp : Paired lanes width wV wP) {sl : Nat} (hs : ¬ wV.Open lanes sl) (v : Value) :
    Matched lanes width (Act.put sl v wV) (Act.put sl v wP) :=
  ⟨rfl, hp.put hs v⟩

theorem matched_putInt (hp : Paired lanes width wV wP) {sl : Nat} (hs : ¬ wV.Open lanes sl) (n : Int64) :
    Matched lanes width (Act.putInt sl n wV) (Act.putInt sl n wP) :=
  ⟨rfl, hp.put hs (.int n)⟩

/-- A write of a variable whose slot is no open accumulator keeps the runs in
step: both write the slot, or both assign through the environment. -/
theorem matched_write (hp : Paired lanes width wV wP) (s : Subject) (i : Nat) {slot : Option Nat}
    (hs : ∀ sl ∈ slot.toList, ¬ wV.Open lanes sl) (node : Nat) (v : Value) :
    Matched lanes width (Act.write s i slot node v wV) (Act.write s i slot node v wP) := by
  unfold Act.write
  cases slot with
  | none => exact hp.viaParent s i node v
  | some sl =>
    dsimp only
    rw [hp.alike.slotSet sl]
    split
    · exact hp.matched_put (hs sl (by simp)) v
    · exact hp.viaParent s i node v

/-- An assignment that reads and writes no open accumulator keeps the runs in
step. -/
theorem matched_update (hp : Paired lanes width wV wP) (s : Subject) (u : Update)
    (hu : ∀ t ∈ u.slots, ¬ wV.Open lanes t) : Matched lanes width (u.exec s wV) (u.exec s wP) := by
  cases u with
  | store i slot node v =>
    simp only [Update.slots, List.mem_append] at hu
    simp only [Update.exec]
    exact (hp.reads_eval s v fun t ht => hu t (.inr ht)).bind_matched hp fun x =>
      hp.matched_write s i (fun t ht => hu t (.inl ht)) node x
  | compound i slot node op rhs shifts =>
    simp only [Update.slots, List.mem_append] at hu
    simp only [Update.exec]
    refine (hp.reads_read s i (fun t ht => hu t (.inl ht)) node).bind_matched hp fun cur =>
      (hp.reads_eval s rhs fun t ht => hu t (.inr ht)).bind_matched hp fun y => ?_
    -- by shifts or by the operator, then the write
    split
    · exact (Reads.pure _).bind_matched hp fun v =>
        hp.matched_write s i (fun t ht => hu t (.inl ht)) node v
    · exact (Reads.located s node _).bind_matched hp fun v =>
        hp.matched_write s i (fun t ht => hu t (.inl ht)) node v

end Paired

end HotLoop
