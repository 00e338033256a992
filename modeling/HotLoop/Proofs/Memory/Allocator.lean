import Mathlib
import HotLoop.Proofs.Memory.Frames
/-!
# HotLoop.Proofs.Memory.Allocator

The stack arena driven by a script of allocations, checkpoints and releases
whose arithmetic fits in a signed 64-bit word (`Arena.Fits`): the top, the
alignment and the size of each request add up to at most `2 ^ 63`, so the
end of a request never wraps around.

* `Arena.Bounded`: the top lies inside a buffer that is not empty and stays
  within its ceiling, the ceiling is below `2 ^ 63`, and the peak is at
  least the top. A new arena is bounded (`bounded_new`) and every command a
  script admits keeps it so (`Bounded.step`).
* One law per outcome of an allocation. It fails for its alignment exactly
  when that is not a positive power of two (`step_alloc_badAlignment`), and
  for capacity exactly when its aligned end passes the ceiling
  (`step_alloc_outOfCapacity`); either way nothing changes. Otherwise it
  hands out the aligned top (`step_alloc_ok`), a multiple of the alignment
  at or above the old top (`dvd_alignUp`, `le_alignUp_of_isPow2`), and
  leaves the state that `Allocated` describes: the top past the request,
  its bytes zero, the bytes below the old top kept, and a buffer grown by
  the fewest doublings that hold the request, capped at the ceiling
  (`grownSize_doubles`).
* A checkpoint names the top; a release goes back to a mark below the top
  and does nothing otherwise (`top_release`, `release_of_not_lt`).
* Along a run the peak is the highest top reached (`peak_run`), and a
  release to the mark of a checkpoint gives its top back when no release in
  between goes below it (`top_release_checkpoint`).

`allocator_laws` gathers them for every script run on a new arena.
-/

namespace HotLoop

namespace Arena

/-! ## Alignment -/

section Align

variable {n al : Nat}

/-- Rounding up to a positive alignment never goes down. -/
theorem le_alignUp (hal : 0 < al) : n ≤ alignUp n al := by
  have hdiv := Nat.div_add_mod (n + al - 1) al
  have hmod := Nat.mod_lt (n + al - 1) hal
  unfold alignUp
  rw [Nat.mul_comm]
  omega

/-- Rounding up adds less than the alignment. -/
theorem alignUp_le (n al : Nat) : alignUp n al ≤ n + al - 1 := Nat.div_mul_le_self _ _

/-- Rounding up lands on a multiple of the alignment. -/
theorem dvd_alignUp (n al : Nat) : al ∣ alignUp n al := Nat.dvd_mul_left _ _

end Align

/-- A valid alignment is positive. -/
theorem pos_of_isPow2 {align : Int} (h : isPow2 align = true) : 0 < align := by
  simp only [isPow2, Bool.and_eq_true, decide_eq_true_eq] at h
  exact h.1

/-- Rounding up to a valid alignment never goes down. -/
theorem le_alignUp_of_isPow2 {align : Int} (h : isPow2 align = true) (n : Nat) :
    n ≤ alignUp n align.toNat :=
  le_alignUp (by have := pos_of_isPow2 h; omega)

/-! ## Requests that fit in a word -/

/-- A request whose arithmetic fits in a signed word: its size is not
negative and, for a valid alignment, the top, the alignment and the size add
up to at most `2 ^ 63`. -/
def Fits (a : Arena) (size align : Int) : Prop :=
  0 ≤ size ∧ (isPow2 align = true → a.top + align.toNat + size.toNat ≤ 2 ^ 63)

variable {a : Arena} {size align : Int}

/-- A request that fits ends at its aligned start plus its size. -/
theorem requestEnd_of_fits (hpow : isPow2 align = true) (hfit : a.Fits size align) :
    a.requestEnd size align = alignUp a.top align.toNat + size := by
  have hpos := pos_of_isPow2 hpow
  have hal : (align.toNat : Int) = align := Int.toNat_of_nonneg hpos.le
  have hs : (size.toNat : Int) = size := Int.toNat_of_nonneg hfit.1
  have hle := alignUp_le a.top align.toNat
  have hsum := hfit.2 hpow
  unfold requestEnd
  apply Int64.toInt_ofInt_of_le <;> omega

/-- A valid request that fits does not end before it starts, so the step
takes the path of `allocate`. -/
private theorem not_wraps (hpow : isPow2 align = true) (hfit : a.Fits size align) :
    ¬ a.requestEnd size align < alignUp a.top align.toNat := by
  rw [requestEnd_of_fits hpow hfit]
  have := hfit.1
  omega

/-! ## The invariant -/

/-- What holds of every state a script of fitting requests reaches: the top
lies inside a buffer that is not empty and stays within a ceiling below
`2 ^ 63`, and the peak is at least the top. -/
structure Bounded (a : Arena) : Prop where
  top_le_size : a.top ≤ a.size
  size_le_ceiling : a.size ≤ a.ceiling
  size_pos : 0 < a.size
  ceiling_lt : a.ceiling < 2 ^ 63
  top_le_peak : a.top ≤ a.peak

theorem Bounded.ceiling_le (hb : a.Bounded) : a.ceiling ≤ 2 ^ 64 := by
  have := hb.ceiling_lt
  omega

/-- A new arena of a positive size, with a ceiling at least that size and
below `2 ^ 63`, is bounded. -/
theorem bounded_new {size ceiling : Int} (hsize : 0 < size) (hceil : size ≤ ceiling)
    (hword : ceiling < 2 ^ 63) : (new size ceiling).Bounded := by
  have hs : ¬ size ≤ 0 := by omega
  have hc : ¬ ceiling < (size.toNat : Int) := by omega
  have hsz : (new size ceiling).size = size.toNat := by
    simp only [new, Arena.size, if_neg hs]
    exact Array.size_replicate
  have hcl : (new size ceiling).ceiling = ceiling.toNat := by
    simp only [new, if_neg hs, if_neg hc]
  exact {
    top_le_size := Nat.zero_le _
    size_le_ceiling := by rw [hsz, hcl]; omega
    size_pos := by rw [hsz]; omega
    ceiling_lt := by rw [hcl]; omega
    top_le_peak := Nat.le_refl _ }

/-- Room for bytes past the ceiling cannot be made. -/
theorem makeRoom_of_ceiling_lt {stop : Nat} (hs : a.size ≤ a.ceiling) (h : a.ceiling < stop) :
    a.makeRoom stop = .error (.outOfCapacity stop a.ceiling) := by
  simp only [makeRoom, if_pos (show stop > a.size by omega), if_pos (show stop > a.ceiling from h)]

/-- Room for bytes within the ceiling is made by growing a buffer too small
for them to `grownSize`; only the buffer and the count of growths change. -/
theorem makeRoom_of_le_ceiling (hb : a.Bounded) {stop : Nat} (h : stop ≤ a.ceiling) :
    ∃ a₁, a.makeRoom stop = .ok a₁ ∧ a₁.top = a.top ∧ a₁.peak = a.peak ∧ a₁.ceiling = a.ceiling ∧
      a₁.size = if a.size < stop then grownSize a.size stop a.ceiling else a.size := by
  unfold makeRoom
  split
  · rename_i hgt
    rw [if_neg (by omega)]
    refine ⟨_, rfl, rfl, rfl, rfl, ?_⟩
    obtain ⟨hneed, -⟩ := grownSize_bounds hb.size_pos hgt h hb.ceiling_le
    exact size_append_zeros a.bytes (show a.size ≤ grownSize a.size stop a.ceiling by omega)
  · exact ⟨a, rfl, rfl, rfl, rfl, rfl⟩

/-! ## One command -/

/-- What an allocation of the bytes `[off, stop)` leaves: the top at `stop`,
the peak raised to it, the buffer grown to `grownSize` if it was too small,
the bytes handed out zero and the bytes below the old top as they were. -/
structure Allocated (a : Arena) (off stop : Nat) (a' : Arena) : Prop where
  top_eq : a'.top = stop
  peak_eq : a'.peak = max a.peak stop
  ceiling_eq : a'.ceiling = a.ceiling
  size_eq : a'.size = if a.size < stop then grownSize a.size stop a.ceiling else a.size
  zeroed : ∀ i, off ≤ i → i < stop → a'.bytes.get! i = 0
  kept : ∀ i < a.top, a'.bytes.get! i = a.bytes.get! i

/-- An allocation fails for its alignment exactly when that is not a
positive power of two, whatever its size, and then changes nothing. -/
theorem step_alloc_badAlignment (hpow : isPow2 align = false) :
    a.step (.alloc size align) = (.fault .badAlignment, a) := by
  simp [step, allocate, hpow]

/-- A request that fits but whose aligned end passes the ceiling fails for
capacity and changes nothing. -/
theorem step_alloc_outOfCapacity (hb : a.Bounded) (hpow : isPow2 align = true)
    (hfit : a.Fits size align) (hcap : a.ceiling < alignUp a.top align.toNat + size.toNat) :
    a.step (.alloc size align) =
      (.fault (.outOfCapacity (alignUp a.top align.toNat + size.toNat) a.ceiling), a) := by
  have hroom := makeRoom_of_ceiling_lt hb.size_le_ceiling hcap
  simp only [step, hpow, true_and, not_wraps hpow hfit, if_false, allocate, Bool.not_true,
    Bool.false_eq_true, hroom]

/-- A request that fits and ends within the ceiling is handed the top
rounded up to its alignment, and leaves the state `Allocated` describes. -/
theorem step_alloc_ok (hb : a.Bounded) (hpow : isPow2 align = true) (hfit : a.Fits size align)
    (hcap : alignUp a.top align.toNat + size.toNat ≤ a.ceiling) :
    ∃ a', a.step (.alloc size align) = (.offset (alignUp a.top align.toNat), a') ∧
      a.Allocated (alignUp a.top align.toNat) (alignUp a.top align.toNat + size.toNat) a' := by
  obtain ⟨a₁, hroom, -, hpeak, hceil, hsize⟩ := makeRoom_of_le_ceiling hb hcap
  obtain ⟨hstop, -, hkeep⟩ := makeRoom_spec hroom hb.size_pos (by have := hb.ceiling_lt; omega)
  have hoff := le_alignUp_of_isPow2 hpow a.top
  simp only [step, hpow, true_and, not_wraps hpow hfit, if_false, allocate, Bool.not_true,
    Bool.false_eq_true, hroom]
  refine ⟨_, rfl, ?_⟩
  exact {
    top_eq := rfl
    peak_eq := by rw [← hpeak]
    ceiling_eq := hceil
    size_eq := by rw [← hsize]; exact size_zeroRange _ _ _
    zeroed := fun i h₁ h₂ => get!_zeroRange _ h₁ h₂ hstop
    kept := fun i hi => by
      rw [get!_zeroRange_of_lt _ (by omega)]
      exact hkeep i (by have := hb.top_le_size; omega) }

namespace Allocated

variable {off stop : Nat} {a' : Arena}

/-- After an allocation within the ceiling the buffer holds the new top and
the old buffer, and stays within the ceiling. -/
theorem size_bounds (h : a.Allocated off stop a') (hb : a.Bounded) (hcap : stop ≤ a.ceiling) :
    stop ≤ a'.size ∧ a.size ≤ a'.size ∧ a'.size ≤ a.ceiling := by
  rw [h.size_eq]
  split
  · rename_i hlt
    have := grownSize_bounds hb.size_pos hlt hcap hb.ceiling_le
    omega
  · have := hb.size_le_ceiling
    omega

theorem bounded (h : a.Allocated off stop a') (hb : a.Bounded) (hcap : stop ≤ a.ceiling) :
    a'.Bounded := by
  obtain ⟨hstop, hgrow, hceil⟩ := h.size_bounds hb hcap
  have hpos := hb.size_pos
  have hlt := hb.ceiling_lt
  exact {
    top_le_size := by rw [h.top_eq]; exact hstop
    size_le_ceiling := by rw [h.ceiling_eq]; exact hceil
    size_pos := by omega
    ceiling_lt := by rw [h.ceiling_eq]; exact hlt
    top_le_peak := by rw [h.top_eq, h.peak_eq]; exact le_max_right _ _ }

end Allocated

/-- A checkpoint names the top and changes nothing. -/
theorem step_checkpoint : a.step .checkpoint = (.mark a.top, a) := rfl

/-- A release answers with the top it leaves. -/
theorem step_release (m : Int) : a.step (.release m) = (.used (a.release m).top, a.release m) := rfl

/-- A release goes back to a mark below the top, and to no other. -/
theorem top_release (m : Int) : (a.release m).top = if 0 ≤ m ∧ m < a.top then m.toNat else a.top := by
  unfold release
  split <;> split <;> first | rfl | omega

/-- A release to a mark at or above the top, or a negative one, does nothing. -/
theorem release_of_not_lt {m : Int} (h : ¬ (0 ≤ m ∧ m < a.top)) : a.release m = a := by
  unfold release
  rw [if_pos (by omega)]

@[simp] theorem peak_release (m : Int) : (a.release m).peak = a.peak := by
  unfold release
  split <;> rfl

@[simp] theorem bytes_release (m : Int) : (a.release m).bytes = a.bytes := by
  unfold release
  split <;> rfl

theorem top_release_le (m : Int) : (a.release m).top ≤ a.top := by
  rw [top_release]
  split <;> omega

theorem Bounded.release (hb : a.Bounded) (m : Int) : (a.release m).Bounded := by
  have := top_release_le (a := a) m
  exact {
    top_le_size := by rw [size_release]; exact le_trans this hb.top_le_size
    size_le_ceiling := by rw [size_release, ceiling_release]; exact hb.size_le_ceiling
    size_pos := by rw [size_release]; exact hb.size_pos
    ceiling_lt := by rw [ceiling_release]; exact hb.ceiling_lt
    top_le_peak := by rw [peak_release]; exact le_trans this hb.top_le_peak }

/-- The commands of an allocator script: allocations that fit, checkpoints
and releases. -/
def Admits (a : Arena) : Command → Prop
  | .alloc size align => a.Fits size align
  | .checkpoint | .release _ => True
  | _ => False

/-- The outcomes of an admitted allocation: it changes nothing, or its
alignment is valid, its aligned end within the ceiling, and it allocates. -/
theorem step_alloc_cases (hb : a.Bounded) (hfit : a.Fits size align) :
    (a.step (.alloc size align)).2 = a ∨
      isPow2 align = true ∧ alignUp a.top align.toNat + size.toNat ≤ a.ceiling ∧
      ∃ a', a.step (.alloc size align) = (.offset (alignUp a.top align.toNat), a') ∧
        a.Allocated (alignUp a.top align.toNat) (alignUp a.top align.toNat + size.toNat) a' := by
  cases hpow : isPow2 align with
  | false => exact .inl (by rw [step_alloc_badAlignment hpow])
  | true =>
    by_cases hcap : alignUp a.top align.toNat + size.toNat ≤ a.ceiling
    · exact .inr ⟨rfl, hcap, step_alloc_ok hb hpow hfit hcap⟩
    · exact .inl (by rw [step_alloc_outOfCapacity hb hpow hfit (by omega)])

/-- Every command a script admits keeps the arena bounded. -/
theorem Bounded.step (hb : a.Bounded) {c : Command} (hc : a.Admits c) : (a.step c).2.Bounded := by
  cases c with
  | alloc size align =>
    rcases step_alloc_cases hb hc with heq | ⟨-, hcap, a', heq, hA⟩
    · rw [heq]; exact hb
    · rw [heq]; exact hA.bounded hb hcap
  | checkpoint => exact hb
  | release m => exact hb.release m
  | _ => exact hc.elim

/-- After an admitted command the peak is the old peak or the new top,
whichever is higher. -/
theorem peak_step (hb : a.Bounded) {c : Command} (hc : a.Admits c) :
    (a.step c).2.peak = max a.peak (a.step c).2.top := by
  have hpeak := hb.top_le_peak
  cases c with
  | alloc size align =>
    rcases step_alloc_cases hb hc with heq | ⟨-, -, a', heq, hA⟩
    · rw [heq]; omega
    · rw [heq, hA.peak_eq, hA.top_eq]
  | checkpoint => show a.peak = max a.peak a.top; omega
  | release m =>
    have := top_release_le (a := a) m
    show (a.release m).peak = max a.peak (a.release m).top
    rw [peak_release]
    omega
  | _ => exact hc.elim

/-- No admitted allocation or checkpoint lowers the top, nor a release to a
mark at or above `m` (or a negative one) a top at or above `m`. -/
theorem le_top_step (hb : a.Bounded) {c : Command} (hc : a.Admits c) {m : Nat} (hm : m ≤ a.top)
    (hrel : ∀ k, c = .release k → m ≤ k ∨ k < 0) : m ≤ (a.step c).2.top := by
  cases c with
  | alloc size align =>
    rcases step_alloc_cases hb hc with heq | ⟨hpow, -, a', heq, hA⟩
    · rw [heq]; exact hm
    · have := le_alignUp_of_isPow2 hpow a.top
      rw [heq, hA.top_eq]
      omega
  | checkpoint => exact hm
  | release k =>
    rw [step_release, top_release]
    have := hrel k rfl
    split <;> omega
  | _ => exact hc.elim

/-- Admitted commands keep the ceiling. -/
theorem ceiling_step (hb : a.Bounded) {c : Command} (hc : a.Admits c) :
    (a.step c).2.ceiling = a.ceiling := by
  cases c with
  | alloc size align =>
    rcases step_alloc_cases hb hc with heq | ⟨-, -, a', heq, hA⟩
    · rw [heq]
    · rw [heq, hA.ceiling_eq]
  | checkpoint => rfl
  | release m => exact ceiling_release m
  | _ => exact hc.elim

/-! ## Runs -/

/-- The arena after a script of commands, run in order. -/
def run (a : Arena) (cmds : List Command) : Arena := cmds.foldl (fun a c => (a.step c).2) a

@[simp] theorem run_nil : a.run [] = a := rfl

@[simp] theorem run_cons (c : Command) (cmds : List Command) : a.run (c :: cmds) = (a.step c).2.run cmds :=
  rfl

theorem run_append (xs ys : List Command) : a.run (xs ++ ys) = (a.run xs).run ys :=
  List.foldl_append ..

/-- The states a script passes through, the first and the last included. -/
def trace (a : Arena) : List Command → List Arena
  | [] => [a]
  | c :: cs => a :: (a.step c).2.trace cs

theorem mem_trace_self (cmds : List Command) : a ∈ a.trace cmds := by
  cases cmds <;> simp [trace]

theorem run_mem_trace : ∀ {a : Arena} (cmds : List Command), a.run cmds ∈ a.trace cmds
  | _, [] => List.mem_singleton_self _
  | _, _ :: cs => List.mem_cons_of_mem _ (run_mem_trace cs)

/-- Every command of a script is admitted by the arena it meets. -/
def Admissible : Arena → List Command → Prop
  | _, [] => True
  | a, c :: cs => a.Admits c ∧ Admissible (a.step c).2 cs

/-- Every state an admissible script passes through is bounded. -/
theorem Bounded.trace : ∀ {a : Arena} {cmds : List Command}, a.Bounded → a.Admissible cmds →
    ∀ b ∈ a.trace cmds, b.Bounded
  | _, [], h, _, b, hmem => by
    rw [List.mem_singleton.mp hmem]
    exact h
  | _, _ :: _, h, ⟨hc, hcs⟩, b, hmem => by
    rcases List.mem_cons.mp hmem with rfl | hmem
    · exact h
    · exact Bounded.trace (h.step hc) hcs b hmem

theorem Bounded.run (hb : a.Bounded) {cmds : List Command} (hadm : a.Admissible cmds) :
    (a.run cmds).Bounded :=
  hb.trace hadm _ (run_mem_trace cmds)

/-- A request small enough that, on any top within a ceiling, its arithmetic
fits in a signed word. -/
def Command.Within (ceiling : Nat) : Command → Prop
  | .alloc size align => 0 ≤ size ∧ ceiling + align.toNat + size.toNat ≤ 2 ^ 63
  | .checkpoint | .release _ => True
  | _ => False

theorem Bounded.admits_of_within (hb : a.Bounded) {c : Command} (hc : c.Within a.ceiling) :
    a.Admits c := by
  have := hb.top_le_size
  have := hb.size_le_ceiling
  cases c with
  | alloc size align => exact ⟨hc.1, fun _ => by have := hc.2; omega⟩
  | checkpoint => trivial
  | release m => trivial
  | _ => exact hc.elim

/-- A script of requests small beside the ceiling is admissible from every
bounded state. -/
theorem admissible_of_within : ∀ {a : Arena} {cmds : List Command}, a.Bounded →
    (∀ c ∈ cmds, c.Within a.ceiling) → a.Admissible cmds
  | _, [], _, _ => trivial
  | a, c :: cs, hb, hw => by
    have hc : a.Admits c := hb.admits_of_within (hw c List.mem_cons_self)
    refine ⟨hc, admissible_of_within (hb.step hc) ?_⟩
    rw [ceiling_step hb hc]
    exact fun c' h => hw c' (List.mem_cons_of_mem _ h)

/-- Along an admissible run from a bounded state the peak is the old peak or
the highest top reached, whichever is higher. -/
theorem peak_run : ∀ {a : Arena} {cmds : List Command}, a.Bounded → a.Admissible cmds →
    (a.run cmds).peak = max a.peak (((a.trace cmds).map top).foldr max 0)
  | a, [], hb, _ => by
    have := hb.top_le_peak
    simp only [run_nil, trace, List.map_cons, List.map_nil, List.foldr_cons, List.foldr_nil]
    omega
  | a, c :: cs, hb, ⟨hc, hcs⟩ => by
    -- the next top is the first of those the rest of the run reaches
    have hnext : (a.step c).2.top ≤ (((a.step c).2.trace cs).map top).foldr max 0 :=
      List.le_max_of_le (List.mem_map_of_mem (mem_trace_self cs)) le_rfl
    have hpeak := peak_step hb hc
    have := hb.top_le_peak
    rw [run_cons, peak_run (hb.step hc) hcs, hpeak]
    simp only [trace, List.map_cons, List.foldr_cons]
    omega

/-- While every release of a script names a mark at or above `m`, or a
negative one, a top at or above `m` stays there. -/
theorem le_top_run {m : Nat} : ∀ {a : Arena} {cmds : List Command}, a.Bounded → a.Admissible cmds →
    m ≤ a.top → (∀ k, Command.release k ∈ cmds → m ≤ k ∨ k < 0) → m ≤ (a.run cmds).top
  | _, [], _, _, hm, _ => hm
  | a, c :: cs, hb, ⟨hc, hcs⟩, hm, hrel => by
    rw [run_cons]
    apply le_top_run (hb.step hc) hcs
    · exact le_top_step hb hc hm fun k hk => hrel k (hk ▸ List.mem_cons_self)
    · exact fun k hk => hrel k (List.mem_cons_of_mem _ hk)

/-- A release to the mark of a checkpoint gives its top back, when no
release in between goes below that mark: nested pairs of checkpoints and
releases leave the top as they found it. -/
theorem top_release_checkpoint (hb : a.Bounded) {cmds : List Command} (hadm : a.Admissible cmds)
    (hrel : ∀ k, Command.release k ∈ cmds → (a.top : Int) ≤ k ∨ k < 0) :
    (a.run (.checkpoint :: cmds ++ [.release a.top])).top = a.top := by
  have hle : a.top ≤ (a.run cmds).top := le_top_run hb hadm le_rfl hrel
  show (a.run (cmds ++ [.release a.top])).top = a.top
  rw [run_append]
  show ((a.run cmds).release a.top).top = a.top
  rw [top_release]
  split <;> omega

/-- The allocator's laws over every admissible script run on a new arena of
a positive size, with a ceiling at least that size and below `2 ^ 63`: every
state reached keeps its top inside a buffer within the ceiling, so the laws
of one command hold at each, and the peak is the highest top reached. -/
theorem allocator_laws {size ceiling : Int} (hsize : 0 < size) (hceil : size ≤ ceiling)
    (hword : ceiling < 2 ^ 63) {cmds : List Command} (hadm : (new size ceiling).Admissible cmds) :
    (∀ b ∈ (new size ceiling).trace cmds, b.Bounded) ∧
      ((new size ceiling).run cmds).peak = (((new size ceiling).trace cmds).map top).foldr max 0 := by
  have hb := bounded_new hsize hceil hword
  refine ⟨hb.trace hadm, ?_⟩
  rw [peak_run hb hadm]
  -- a new arena has reached no top yet
  exact Nat.zero_max _

/-- A script that grows a 16-byte arena, takes a checkpoint and releases to it. -/
theorem allocator_laws_grown :
    (new 16 64).Admissible [.alloc 24 8, .checkpoint, .alloc 8 16, .release 24] ∧
      (∀ b ∈ (new 16 64).trace [.alloc 24 8, .checkpoint, .alloc 8 16, .release 24], b.Bounded) ∧
      ((new 16 64).run [.alloc 24 8, .checkpoint, .alloc 8 16, .release 24]).peak =
        (((new 16 64).trace [.alloc 24 8, .checkpoint, .alloc 8 16, .release 24]).map top).foldr max 0 :=
  have hadm : (new 16 64).Admissible [.alloc 24 8, .checkpoint, .alloc 8 16, .release 24] :=
    admissible_of_within (bounded_new (by decide) (by decide) (by decide))
      (by simp [Command.Within, new])
  ⟨hadm, allocator_laws (by decide) (by decide) (by decide) hadm⟩

end Arena

end HotLoop
