import HotLoop.Proofs.Eval.Counted
/-!
# HotLoop.Proofs.Compile.Unroll

Unrolling a compiled counted loop changes how often the trips left are
checked, never which iterations run.

* `Entry.block_range`: a block of `j` iterations followed by the plain loop
  over `t` more trips is the plain loop over `j + t` trips; an iteration that
  stops the loop inside the block stops the plain loop at the same place.
* `Entry.unrolled_eq_range`: the unrolled loop is the plain one, for every
  unroll factor, fuel, counter and trip count, by induction along the
  blocks.
* `Entry.unrolled_runs`: what that means iteration by iteration. Iteration
  `k` runs with the counter at `start + k * step`; the loop stops right
  after an iteration whose body breaks, returns or fails, and otherwise goes
  on from the next counter value until no trip is left; the count it returns
  is the number of iterations it started.
* `counted_loop_exact`: a counted loop iterates exactly over its half-open
  range in every executor: the interpreter, the compiled loop unrolled by
  any factor, a whole compiled run, and a loop nested in compiled code.
-/

namespace HotLoop

/-! ## Running compiled actions -/

/-- An action that succeeds hands its value and state to what follows. -/
theorem Act.bind_ok {α β : Type} {x : Act α} {f : α → Act β} {w w' : Work} {a : α} (h : x w = .ok a w') :
    (x >>= f) w = f a w' := by
  show EStateM.bind x f w = _
  rw [EStateM.bind, h]

/-- An action that fails skips what follows. -/
theorem Act.bind_error {α β : Type} {x : Act α} {f : α → Act β} {w w' : Work} {e : Error}
    (h : x w = .error e w') : (x >>= f) w = .error e w' := by
  show EStateM.bind x f w = _
  rw [EStateM.bind, h]

/-- Actions that agree on a state agree on it with anything after them. -/
theorem Act.bind_congr {α β : Type} {x y : Act α} {w : Work} (h : x w = y w) (f : α → Act β) :
    (x >>= f) w = (y >>= f) w := by
  show EStateM.bind x f w = EStateM.bind y f w
  rw [EStateM.bind, EStateM.bind, h]

/-! ## Unrolling -/

/-- The values a counted loop steps through are the terms
`cur + k * step`, on 64-bit words. -/
theorem stepValues_eq_map (step : Int64) : ∀ (cur : Int64) (t : Nat),
    stepValues step cur t = (List.range t).map fun k => cur + Int64.ofNat k * step
  | _, 0 => rfl
  | cur, t + 1 => by
    rw [stepValues, stepValues_eq_map step (cur + step) t, List.range_succ_eq_map, List.map_cons,
      List.map_map]
    congr 1
    · simp
    · apply List.map_congr_left
      intro k _
      rw [Function.comp_apply, Nat.succ_eq_add_one, Int64.ofNat_add]
      grind

namespace Entry

variable (e : Entry) (s : Subject) (counter : Nat) (step : Int64)

/-- A block of `j` iterations, then the plain loop over `t` more trips, is
the plain loop over `j + t` trips. -/
theorem block_range (t : Nat) : ∀ (fuel : Nat) (cur : Int64) (j n : Nat),
    e.block s counter step (fun f c m => e.range s counter step f c t m) fuel cur j n =
      e.range s counter step fuel cur (j + t) n
  | fuel, cur, 0, n => by simp only [block, Nat.zero_add]
  | 0, _, _ + 1, _ => by simp only [block, range]
  | f + 1, cur, j + 1, n => by
    rw [Nat.add_right_comm]
    simp only [block, range, block_range t f]

/-- Unrolling never changes the run: the unrolled loop is the plain one. -/
theorem unrolled_eq_range (u fuel : Nat) (cur : Int64) (trips n : Nat) :
    e.unrolled s counter u step fuel cur trips n = e.range s counter step fuel cur trips n := by
  fun_induction e.unrolled s counter u step fuel cur trips n with
  | case1 fuel cur trips n hblock ih =>
    -- a block of `u` iterations is followed by the unrolled loop over the
    -- trips left, which is the plain loop by induction
    simp only [ih]
    rw [block_range, Nat.add_sub_cancel' hblock.2]
  | case2 => rfl

/-- How a compiled counted loop unrolled by `u` runs, iteration by
iteration: iteration `n` sets the counter, then runs the body with `iter`
at `n`. -/
structure Unrolls (u : Nat) : Prop where
  /-- It runs exactly as the plain loop, which checks the trips left once
  per iteration. -/
  plain : ∀ fuel cur trips n,
    e.unrolled s counter u step fuel cur trips n = e.range s counter step fuel cur trips n
  /-- Iteration `k` runs with the counter at `start + k * step`: the loop is
  the collection loop over those values. -/
  values : ∀ fuel start trips, e.unrolled s counter u step fuel start trips 0 =
    e.each s counter fuel ((List.range trips).map fun k => .int (start + Int64.ofNat k * step)) 0
  /-- With no trip left it ends at once, `n` iterations started. -/
  done : ∀ fuel cur n w, e.unrolled s counter u step (fuel + 1) cur 0 n w = .ok ⟨.ok .none, n⟩ w
  /-- A body that breaks ends the loop right after its iteration. -/
  broke : ∀ fuel cur trips n w w₁ w', Act.putInt counter cur w = .ok () w₁ →
    Code.execAll s e.width fuel e.body { w₁ with iter := n } = .ok .brk w' →
    e.unrolled s counter u step (fuel + 1) cur (trips + 1) n w = .ok ⟨.ok .none, n + 1⟩ w'
  /-- A body that returns ends the loop right after its iteration, with the
  value. -/
  returned : ∀ fuel cur trips n w w₁ w' v, Act.putInt counter cur w = .ok () w₁ →
    Code.execAll s e.width fuel e.body { w₁ with iter := n } = .ok (.ret v) w' →
    e.unrolled s counter u step (fuel + 1) cur (trips + 1) n w = .ok ⟨.ok (.ret v), n + 1⟩ w'
  /-- A body that fails ends the loop right after its iteration, the error
  recording the loop. -/
  failed : ∀ fuel cur trips n w w₁ w' err, Act.putInt counter cur w = .ok () w₁ →
    Code.execAll s e.width fuel e.body { w₁ with iter := n } = .error err w' →
    e.unrolled s counter u step (fuel + 1) cur (trips + 1) n w =
      .ok ⟨.error (err.throughLoop (s.loopAt 0)), n + 1⟩ w'
  /-- Any other iteration is followed by the rest of the loop, from the next
  counter value and with one more iteration started. -/
  continues : ∀ fuel cur trips n w w₁ w' sig, Act.putInt counter cur w = .ok () w₁ →
    Code.execAll s e.width fuel e.body { w₁ with iter := n } = .ok sig w' →
    (sig = .none ∨ sig = .cont) →
    e.unrolled s counter u step (fuel + 1) cur (trips + 1) n w =
      e.unrolled s counter u step fuel (cur + step) trips (n + 1) w'

/-- An iteration whose body breaks stops the loop without an error. -/
theorem iteration_brk {fuel n : Nat} {w w' : Work}
    (h : Code.execAll s e.width fuel e.body { w with iter := n } = .ok .brk w') :
    e.iteration s fuel n w = .ok (some (.ok .none)) w' := by
  unfold iteration
  rw [h]

/-- An iteration whose body returns stops the loop with the value. -/
theorem iteration_ret {fuel n : Nat} {w w' : Work} {v : Value}
    (h : Code.execAll s e.width fuel e.body { w with iter := n } = .ok (.ret v) w') :
    e.iteration s fuel n w = .ok (some (.ok (.ret v))) w' := by
  unfold iteration
  rw [h]

/-- An iteration whose body fails stops the loop with the error, which
records the loop. -/
theorem iteration_error {fuel n : Nat} {w w' : Work} {err : Error}
    (h : Code.execAll s e.width fuel e.body { w with iter := n } = .error err w') :
    e.iteration s fuel n w = .ok (some (.error (err.throughLoop (s.loopAt 0)))) w' := by
  unfold iteration
  rw [h]

/-- Any other iteration lets the loop go on. -/
theorem iteration_next {fuel n : Nat} {w w' : Work} {sig : Signal}
    (h : Code.execAll s e.width fuel e.body { w with iter := n } = .ok sig w')
    (hsig : sig = .none ∨ sig = .cont) : e.iteration s fuel n w = .ok none w' := by
  unfold iteration
  rw [h]
  rcases hsig with rfl | rfl <;> rfl

variable {fuel : Nat} {cur : Int64} {trips n : Nat} {w w₁ w' : Work}

/-- The plain loop stops right after an iteration that stops it, counting
it. -/
theorem range_succ_stop {r : Except Error Signal} (hput : Act.putInt counter cur w = .ok () w₁)
    (hit : e.iteration s fuel n w₁ = .ok (some r) w') :
    e.range s counter step (fuel + 1) cur (trips + 1) n w = .ok ⟨r, n + 1⟩ w' := by
  simp only [range]
  rw [Act.bind_ok hput, Act.bind_ok hit]
  rfl

/-- After any other iteration the plain loop goes on from the next counter
value, counting it. -/
theorem range_succ_next (hput : Act.putInt counter cur w = .ok () w₁)
    (hit : e.iteration s fuel n w₁ = .ok none w') :
    e.range s counter step (fuel + 1) cur (trips + 1) n w =
      e.range s counter step fuel (cur + step) trips (n + 1) w' := by
  simp only [range]
  rw [Act.bind_ok hput, Act.bind_ok hit]

/-- **Unrolled counted loops run the plain iteration sequence.** For every
unroll factor, a compiled counted loop runs iteration `k` with the counter
at `start + k * step`, stops right after an iteration whose body breaks,
returns or fails, otherwise runs all its trips, and returns the number of
iterations it started. -/
theorem unrolled_runs (u : Nat) : e.Unrolls s counter step u where
  plain := e.unrolled_eq_range s counter step u
  values fuel start trips := by
    rw [unrolled_eq_range, range_eq_each, stepValues_eq_map, List.map_map]
    rfl
  done fuel cur n w := by
    rw [unrolled_eq_range]
    rfl
  broke _ _ _ _ _ _ _ hput hbody := by
    rw [unrolled_eq_range]
    exact e.range_succ_stop s counter step hput (e.iteration_brk s hbody)
  returned _ _ _ _ _ _ _ _ hput hbody := by
    rw [unrolled_eq_range]
    exact e.range_succ_stop s counter step hput (e.iteration_ret s hbody)
  failed _ _ _ _ _ _ _ _ hput hbody := by
    rw [unrolled_eq_range]
    exact e.range_succ_stop s counter step hput (e.iteration_error s hbody)
  continues _ _ _ _ _ _ _ _ hput hbody hsig := by
    rw [unrolled_eq_range, unrolled_eq_range]
    exact e.range_succ_next s counter step hput (e.iteration_next s hbody hsig)

end Entry

/-! ## Counted loops -/

/-- What a counted loop with header `h` does: it iterates over exactly the
terms of its progression in its half-open range, binds them as exact
64-bit integers, and every executor binds them in order as a collection loop
over them would, stopping early only where that loop does. -/
structure Header.IteratesExactly (h : Header) : Prop where
  /-- `trips` is the number of terms `start + k * step` in the range. -/
  card : {k : Nat | h.InRange k}.ncard = h.trips
  /-- The values bound are those terms in order, each held by a word. -/
  exact : h.values.map Int64.toInt = (List.range h.trips).map fun (k : Nat) =>
    h.start.toInt + k * h.step.toInt
  /-- The interpreter's iterations. -/
  interpreted : ∀ (fuel : Nat) (l : Loop) (v : String) (a b : Expr) (st : Option Expr),
    l.head = .range v a b st → iterate (fuel + 1) l h = iterEach fuel l v (h.values.map .int) 0
  /-- The compiled loop's iterations, unrolled by any factor or not. -/
  compiled : ∀ (e : Entry) (s : Subject) (counter u fuel : Nat),
    e.unrolled s counter u h.step fuel h.start h.trips 0 = e.each s counter fuel (h.values.map .int) 0
  /-- A whole run of a compiled counted loop without lanes: its prologue,
  then those iterations. -/
  entry : ∀ (e : Entry) (s : Subject) (counter u fuel : Nat), e.head = .range counter u → e.lanes = [] →
    e.run s h fuel = (e.prologue s >>= fun _ => e.each s counter fuel (h.values.map .int) 0)
  /-- The iterations of a loop nested in compiled code. -/
  nested : ∀ (s : Subject) (width node : Nat) (body : List Code) (counter fuel : Nat),
    Code.innerRange s width fuel node body counter h.step h.start h.trips =
      Code.innerEach s width fuel node body counter (h.values.map .int)

/-- A counted loop with a non-zero step iterates exactly over its half-open
range, without overflow, in every executor. -/
theorem counted_loop_exact (h : Header) (hs : h.step ≠ 0) : h.IteratesExactly where
  card := h.ncard_inRange hs
  exact := h.toInt_values hs
  interpreted fuel l v a b st hl := by
    rw [iterate, hl]
    exact iterRange_eq_iterEach l v h.step fuel h.start h.trips 0
  compiled e s counter u fuel := by
    rw [Entry.unrolled_eq_range]
    exact Entry.range_eq_each e s counter h.step fuel h.start h.trips 0
  entry e s counter u fuel hhead hlanes := by
    simp only [Entry.run, hhead, hlanes, List.isEmpty_nil, if_true, Entry.unrolled_eq_range,
      Entry.range_eq_each]
    rfl
  nested s width node body counter fuel :=
    Code.innerRange_eq_innerEach s width node body counter h.step fuel h.start h.trips

/-- The widest downward loop, from the largest word to the smallest by the
most negative step: both the distance and the step's magnitude overflow a
word, and the step after the last value wraps. -/
theorem counted_loop_exact_widest_down :
    (⟨Int64.maxValue, Int64.minValue, Int64.minValue, []⟩ : Header).step ≠ 0 ∧
      (⟨Int64.maxValue, Int64.minValue, Int64.minValue, []⟩ : Header).IteratesExactly :=
  ⟨by decide, counted_loop_exact _ (by decide)⟩

end HotLoop
