import HotLoop.Proofs.Compile.Unroll
import HotLoop.Proofs.Eval.LoopStack
/-!
# HotLoop.Proofs.Compile.Defect

Compiled code has one defect of its own to report: an artifact handed a
frame it was not laid out for. Every other error it raises belongs to the
program (a fault of an operator, an undefined variable, a loop bound that
is not an integer) or to the step limit. The dispatcher takes an internal
error before the first iteration for a defect, so it sees one exactly when
the frame's number of slots is not the layout's (`Run.compiled_defect_iff`).

* `Error.OfProgram`: an error whose cause is not `internal`. Locating an
  error and sending it out of a loop keep its cause, and operators fail
  only with errors of the program.
* `Act.Sound x`: started on a work whose hoisted values hold no internal
  error (`Work.Clean`), `x` fails only with errors of the program and
  leaves the hoisted values clean. Expressions of compiled code are sound
  (`Calc.sound_eval`), by induction on the code.
* `Entry.run_clear`: a compiled loop run on a clean work reports no
  defect. An iteration's error is caught into the pass, which then counts
  the iteration; the passes before the first iteration are the step limit,
  the end of the iterations, and an error of a conditional loop's first
  condition, which is sound. The prologue hoists values of sound
  expressions, so the work it leaves is clean.
-/

namespace HotLoop

/-! ## Errors of the program -/

/-- An error of the program or of the step limit: anything but a defect of
the compiler. -/
def Error.OfProgram (e : Error) : Prop := e.cause ≠ .internal

namespace Error

@[simp] theorem cause_detailed (c : Cause) (d : String) : (detailed c d).cause = c := rfl

/-- The located error found inside an error has the error's cause. -/
theorem cause_of_located? {e l : Error} (h : e.located? = some l) : l.cause = e.cause := by
  induction e with
  | context _ e ih => exact ih h
  | located => cases h; rfl
  | _ => cases h

@[simp] theorem cause_locate (cat : Category) (line col : Int) (e : Error) :
    (e.locate cat line col).cause = e.cause := by
  unfold locate
  split
  · rename_i l hl
    exact cause_of_located? hl
  · rfl

@[simp] theorem cause_at (e : Error) (p : Pos) : (e.at p).cause = e.cause := cause_locate _ _ _ e

@[simp] theorem cause_throughLoop (fr : LoopFrame) (e : Error) : (e.throughLoop fr).cause = e.cause := by
  induction e with
  | context _ e ih => exact ih
  | located cat => cases cat <;> rfl
  | _ => rfl

theorem ofProgram_detailed {c : Cause} (hc : c ≠ .internal) (d : String) : (detailed c d).OfProgram := hc

theorem ofProgram_at {e : Error} (he : e.OfProgram) (p : Pos) : (e.at p).OfProgram := by
  rw [OfProgram, cause_at]
  exact he

theorem ofProgram_throughLoop {e : Error} (he : e.OfProgram) (fr : LoopFrame) :
    (e.throughLoop fr).OfProgram := by
  rw [OfProgram, cause_throughLoop]
  exact he

theorem ofProgram_outOfFuel : outOfFuel.OfProgram := by
  simp [OfProgram, outOfFuel, cause]

theorem not_ofProgram_layoutMismatch (slots n : Nat) : ¬ (layoutMismatch slots n).OfProgram := by
  simp [OfProgram, layoutMismatch]

end Error

/-! ## Operators fail with errors of the program -/

theorem intBinary_ofProgram (op : Op) (x y : Int64) : FailsWith Error.OfProgram (intBinary op x y) := by
  intro e h
  unfold intBinary at h
  split at h <;> (try split at h) <;> cases h <;> simp [Error.OfProgram, Error.operands, Error.cause]

namespace Value

theorem floatBinary_ofProgram (op : Op) (a b : Value) (x y : Double) :
    FailsWith Error.OfProgram (floatBinary op a b x y) := by
  intro e h
  unfold floatBinary at h
  split at h <;> cases h
  simp [Error.OfProgram, Error.operands]

theorem binary_ofProgram (op : Op) (a b : Value) : FailsWith Error.OfProgram (binary op a b) := by
  intro e h
  unfold binary at h
  split at h
  any_goals cases h
  split at h
  · exact intBinary_ofProgram _ _ _ e h
  · split at h
    · exact floatBinary_ofProgram _ _ _ _ _ e h
    · cases h
      simp [Error.OfProgram, Error.operands]

theorem unary_ofProgram (op : Op) (v : Value) : FailsWith Error.OfProgram (unary op v) := by
  intro e h
  unfold unary at h
  split at h <;> cases h
  simp [Error.OfProgram]

theorem index_ofProgram (a i : Value) : FailsWith Error.OfProgram (index a i) := by
  intro e h
  unfold index at h
  split at h
  · split at h
    · cases h
      simp [Error.OfProgram]
    · split at h <;> cases h
      simp [Error.OfProgram]
  · cases h
    simp [Error.OfProgram]

end Value

/-! ## Sound actions -/

/-- The hoisted values of a work hold no internal error. -/
def Work.Clean (w : Work) : Prop := ∀ (k : Nat) (e : Error), w.hoist[k]? = some (.error e) → e.OfProgram

namespace Act

/-- Where compiled code started on a clean work may end: returning on a
clean work, or failing with an error of the program. -/
def Lands {α : Type} : EStateM.Result Error Work α → Prop
  | .ok _ w => w.Clean
  | .error e _ => e.OfProgram

/-- Started on any clean work, `x` lands. -/
def Sound {α : Type} (x : Act α) : Prop := ∀ w, w.Clean → Lands (x w)

section Sound

variable {α β : Type}

theorem Sound.pure (a : α) : Sound (pure a : Act α) := fun _ hw => hw

theorem Sound.throw {e : Error} (he : e.OfProgram) : Sound (throw e : Act α) := fun _ _ => he

theorem Sound.bind {x : Act α} {f : α → Act β} (hx : Sound x) (hf : ∀ a, Sound (f a)) :
    Sound (x >>= f) := by
  intro w hw
  have h := hx w hw
  show Lands (EStateM.bind x f w)
  unfold EStateM.bind
  cases hxw : x w with
  | ok a w' =>
    rw [hxw] at h
    exact hf a w' h
  | error e w' =>
    rw [hxw] at h
    exact h

theorem sound_get? (slot : Nat) : Sound (get? slot) := fun _ hw => hw

theorem sound_lookup (s : Subject) (i node : Nat) : Sound (lookup s i node) := by
  intro w hw
  unfold lookup
  split
  · exact hw
  · exact Error.ofProgram_at (Error.ofProgram_detailed (by decide) _) _

theorem sound_read (s : Subject) (i : Nat) (slot : Option Nat) (node : Nat) :
    Sound (read s i slot node) := by
  unfold read
  split
  · refine (sound_get? _).bind fun r => ?_
    split
    · exact Sound.pure _
    · exact sound_lookup s i node
  · exact sound_lookup s i node

theorem sound_located (s : Subject) (node : Nat) {r : Except Error Value}
    (hr : FailsWith Error.OfProgram r) : Sound (located s node r) := by
  cases r with
  | ok v => exact Sound.pure v
  | error e => exact Sound.throw (Error.ofProgram_at (hr e rfl) _)

end Sound

end Act

open Act in
mutual
/-- Expressions of compiled code fail only with errors of the program, and
only read the work. -/
theorem Calc.sound_eval (s : Subject) : (c : Calc) → Sound (c.eval s)
  | .const v => by simp only [Calc.eval]; exact Sound.pure v
  | .hoisted k => by
    intro w hw
    simp only [Calc.eval]
    split
    · exact hw
    · rename_i e he
      exact hw k e he
    · exact hw
  | .array es => by
    simp only [Calc.eval]
    exact (Calc.sound_evalAll s es).bind fun _ => Sound.pure _
  | .var i slot node => by simp only [Calc.eval]; exact sound_read s i slot node
  | .logic short op x y node => by
    simp only [Calc.eval]
    refine (Calc.sound_eval s x).bind fun a => ?_
    split
    · exact Sound.pure _
    · exact (Calc.sound_eval s y).bind fun b => sound_located s node (Value.binary_ofProgram op a b)
  | .scaled op shifts litLeft x y node => by
    simp only [Calc.eval]
    refine (Calc.sound_eval s x).bind fun a => (Calc.sound_eval s y).bind fun b => ?_
    split
    · exact Sound.pure _
    · exact sound_located s node (Value.binary_ofProgram op a b)
  | .binary op x y node => by
    simp only [Calc.eval]
    exact (Calc.sound_eval s x).bind fun a => (Calc.sound_eval s y).bind fun b =>
      sound_located s node (Value.binary_ofProgram op a b)
  | .unary op x node => by
    simp only [Calc.eval]
    exact (Calc.sound_eval s x).bind fun a => sound_located s node (Value.unary_ofProgram op a)
  | .index x i node => by
    simp only [Calc.eval]
    exact (Calc.sound_eval s x).bind fun a => (Calc.sound_eval s i).bind fun k =>
      sound_located s node (Value.index_ofProgram a k)

/-- A list of expressions of compiled code is sound. -/
theorem Calc.sound_evalAll (s : Subject) : (cs : List Calc) → Sound (Calc.evalAll s cs)
  | [] => by simp only [Calc.evalAll]; exact Sound.pure _
  | c :: cs => by
    simp only [Calc.evalAll]
    exact (Calc.sound_eval s c).bind fun _ => (Calc.sound_evalAll s cs).bind fun _ => Sound.pure _
end

/-! ## Passes with no defect -/

namespace Pass

theorem defect?_ok (sig : Signal) (n : Nat) : (⟨.ok sig, n⟩ : Pass).defect? = none := rfl

/-- A pass that started an iteration has no defect. -/
theorem defect?_succ (r : Except Error Signal) (n : Nat) : (⟨r, n + 1⟩ : Pass).defect? = none := by
  unfold defect?
  split <;> simp

theorem defect?_error {e : Error} (he : e.OfProgram) (n : Nat) : (⟨.error e, n⟩ : Pass).defect? = none := by
  simp only [defect?, ite_eq_right_iff, and_imp]
  intro hc
  exact absurd hc he

end Pass

namespace Act

/-- Where a compiled loop may end: with a pass that has no defect, or
failing with an error of the program. -/
def Clear : EStateM.Result Error Work Pass → Prop
  | .ok pass _ => pass.defect? = none
  | .error e _ => e.OfProgram

theorem clear_always {x : Act Pass} {w : Work} (h : Clear (x w)) (cleanup : Work → Work) :
    Clear (always x cleanup w) := by
  unfold always
  split <;> rename_i heq <;> rw [heq] at h <;> exact h

end Act

namespace Entry

open Act

variable (e : Entry) (s : Subject)

/-- An iteration never fails: the error of its body is caught into its
outcome. -/
theorem iteration_ok (fuel n : Nat) (w : Work) : ∃ r w', e.iteration s fuel n w = .ok r w' := by
  unfold iteration
  split <;> exact ⟨_, _, rfl⟩

/-- Collection iterations report no defect: every pass they end with either
started an iteration or holds no error of its own. -/
theorem each_clear (slot : Nat) :
    ∀ (fuel : Nat) (elems : List Value) (n : Nat) (w : Work), Clear (e.each s slot fuel elems n w)
  | 0, _, n, _ => by simp only [each]; exact Pass.defect?_error Error.ofProgram_outOfFuel n
  | _ + 1, [], n, _ => by simp only [each]; exact Pass.defect?_ok _ n
  | f + 1, x :: rest, n, w => by
    obtain ⟨w₁, hput⟩ : ∃ w₁, Act.put slot x w = .ok () w₁ := ⟨_, rfl⟩
    obtain ⟨r, w', hit⟩ := e.iteration_ok s f n w₁
    simp only [each]
    rw [Act.bind_ok hput, Act.bind_ok hit]
    cases r with
    | some r => exact Pass.defect?_succ r n
    | none => exact each_clear slot f rest (n + 1) w'

/-- Conditional iterations report no defect when they start after an
iteration, or on a clean work, where the first condition is sound. -/
theorem whileTrue_clear (c : Calc) :
    ∀ (fuel n : Nat) (w : Work), (0 < n ∨ w.Clean) → Clear (e.whileTrue s c fuel n w)
  | 0, n, _, _ => by simp only [whileTrue]; exact Pass.defect?_error Error.ofProgram_outOfFuel n
  | f + 1, n, w, hw => by
    simp only [whileTrue]
    split
    · -- the condition failed, before any iteration of this call
      rename_i err w' heval
      rcases hw with hn | hw
      · obtain ⟨k, rfl⟩ := Nat.exists_eq_succ_of_ne_zero hn.ne'
        exact Pass.defect?_succ _ k
      · have hsound := Calc.sound_eval s c w hw
        rw [heval] at hsound
        exact Pass.defect?_error (Error.ofProgram_throughLoop hsound _) n
    · rename_i v w' heval
      split
      · exact Pass.defect?_ok _ n
      · split
        · exact Pass.defect?_succ _ n
        · exact whileTrue_clear c f (n + 1) _ (.inl n.succ_pos)
        · rename_i err w'' hit
          obtain ⟨r, w₂, hok⟩ := e.iteration_ok s f n w'
          rw [hok] at hit
          cases hit

/-- The prologue leaves a clean work: it hoists the outcomes of sound
expressions evaluated on the clean work it starts on. -/
theorem prologue_clean {w : Work} (hw : w.Clean) : ∃ w', e.prologue s w = .ok () w' ∧ w'.Clean := by
  refine ⟨_, rfl, fun k err hk => ?_⟩
  simp only [List.getElem?_toArray, List.getElem?_map] at hk
  cases hc : e.hoisted[k]? with
  | none => rw [hc] at hk; cases hk
  | some c =>
    have hsound := Calc.sound_eval s c w hw
    cases hev : c.eval s w with
    | ok v w' => simp [hc, hev] at hk
    | error err' w' =>
      simp only [hc, hev, Option.map_some, Option.some.injEq, Except.error.injEq] at hk
      rw [hev] at hsound
      rw [← hk]
      exact hsound

/-- A compiled loop started on a clean work reports no defect. -/
theorem run_clear (h : Header) (fuel : Nat) {w : Work} (hw : w.Clean) : Clear (e.run s h fuel w) := by
  obtain ⟨w₁, hpro, hw₁⟩ := e.prologue_clean s hw
  simp only [run]
  rw [Act.bind_ok hpro]
  cases hhead : e.head with
  | range counter u =>
    -- a counted loop runs as the collection loop over its counter values
    have hvals := (e.unrolled_runs s counter h.step u).values fuel h.start h.trips
    dsimp only
    split
    · rw [hvals]
      exact e.each_clear s counter fuel _ 0 w₁
    · obtain ⟨w₂, hopen⟩ : ∃ w₂, openLanes e.lanes e.width w₁ = .ok () w₂ := ⟨_, rfl⟩
      rw [Act.bind_ok hopen]
      refine clear_always ?_ _
      rw [hvals]
      exact e.each_clear s counter fuel _ 0 w₂
  | each slot => exact e.each_clear s slot fuel h.elems 0 w₁
  | cond c => exact e.whileTrue_clear s c fuel 0 w₁ (.inr hw₁)

end Entry

/-! ## The defect of an artifact -/

namespace Artifact

variable (a : Artifact) (s : Subject) (h : Header) (fuel : Nat)

theorem run_clear {w : Work} (hw : w.Clean) (hfit : w.frame.numSlots = a.layout.length) :
    Act.Clear (a.run s h fuel w) := by
  unfold run
  rw [if_pos hfit]
  exact a.entry.run_clear s h fuel hw

theorem run_misfit (w : Work) (hfit : w.frame.numSlots ≠ a.layout.length) :
    a.run s h fuel w = .error (Error.layoutMismatch w.frame.numSlots a.layout.length) w := by
  unfold run
  rw [if_neg hfit]

end Artifact

/-- **Compiled code reports a defect exactly when its frame does not fit its
layout.** Run in a frame with as many slots as the artifact's layout, it
ends with a pass that has no defect; run in any other frame, it is refused
before its first iteration with an internal error. -/
theorem Run.compiled_defect_iff {fr fr' : Frame} {a : Artifact} {sub : Subject} {h : Header}
    {fuel : Nat} {m m' : Machine} {pass : Pass} (hrun : Run.compiled fr a sub h fuel m = .ok (pass, fr') m') :
    pass.defect? = none ↔ fr.numSlots = a.layout.length := by
  unfold Run.compiled at hrun
  dsimp only at hrun
  -- the code starts on a work with nothing hoisted
  have hw : ({ frame := fr, parent := m.env, arena := m.mem.arena } : Work).Clean :=
    fun k e hk => by simp at hk
  by_cases hfit : fr.numSlots = a.layout.length
  · refine iff_of_true ?_ hfit
    have hclear := a.run_clear sub h fuel hw hfit
    cases hres : a.run sub h fuel { frame := fr, parent := m.env, arena := m.mem.arena } with
    | ok p w' =>
      rw [hres] at hrun hclear
      cases hrun
      exact hclear
    | error err w' =>
      rw [hres] at hrun hclear
      cases hrun
      exact Pass.defect?_error hclear 0
  · refine iff_of_false ?_ hfit
    rw [a.run_misfit sub h fuel _ hfit] at hrun
    cases hrun
    simp [Pass.defect?, Error.layoutMismatch]

end HotLoop
