import HotLoop.Proofs.Eval.LoopFrame
import HotLoop.Proofs.Compile.Unroll
import HotLoop.Eval.Program
/-!
# HotLoop.Proofs.Eval.Balance

Loop memory is balanced across every call into the interpreter. A frame is
opened only around the iterations of one execution of a loop and is closed
before that execution returns, whatever happened inside it. So when a block,
a loop handed to the dispatcher or a whole program returns, with a signal or
an error (a runtime error of interpreted or compiled code, a nesting error, a
failed compilation, a compiled loop that fell back to interpretation), the
manager has as many frames open as before, the arena's top is back where it
was, and every frame opened in between has been closed
(`loop_memory_balanced`).

The proof walks the interpreter.

* `Keeps R x` says that a state computation `x` ends, returned or failed, in
  a state `R`-related to the one it started in, and `KeepsOk R x` that it
  also cannot fail; both compose along binds for a preorder `R`.
* Compiled code runs inside its frame: it keeps the arena's top, the
  frame's mark and the layers of the environment around it (`Work.Steady`).
* `Machine.Tidy` is what a call of the interpreter leaves: balanced memory
  (`Manager.Balanced`) and an environment with the layers it had, every
  frame with the mark it releases the arena to. Opening a frame, running a
  computation in it that cannot fail, and closing it again is tidy
  (`Opened` and `Closes`), and an induction on the fuel carries the whole
  interpreter (`tidying`).
-/

namespace HotLoop

/-! ## Computations that keep a relation -/

/-- The state a computation ends in, whether it returned or failed. -/
def finalState {ε σ α : Type} : EStateM.Result ε σ α → σ
  | .ok _ s => s
  | .error _ s => s

section Keeping

variable {ε σ α β : Type} {R : σ → σ → Prop}

/-- `x` ends, returned or failed, in a state that `R` relates to the state
it started in. -/
def Keeps (R : σ → σ → Prop) (x : EStateM ε σ α) : Prop := ∀ s, R s (finalState (x s))

/-- `x` returns, in a state that `R` relates to the state it started in. -/
def KeepsOk (R : σ → σ → Prop) (x : EStateM ε σ α) : Prop :=
  ∀ s, ∃ a s', x s = .ok a s' ∧ R s s'

theorem KeepsOk.keeps {x : EStateM ε σ α} (h : KeepsOk R x) : Keeps R x := by
  intro s
  obtain ⟨a, s', hx, hr⟩ := h s
  rw [hx]
  exact hr

theorem Keeps.mono {R' : σ → σ → Prop} {x : EStateM ε σ α} (h : Keeps R x)
    (hR : ∀ s s', R s s' → R' s s') : Keeps R' x :=
  fun s => hR _ _ (h s)

theorem KeepsOk.mono {R' : σ → σ → Prop} {x : EStateM ε σ α} (h : KeepsOk R x)
    (hR : ∀ s s', R s s' → R' s s') : KeepsOk R' x := by
  intro s
  obtain ⟨a, s', hx, hr⟩ := h s
  exact ⟨a, s', hx, hR _ _ hr⟩

theorem KeepsOk.pure [Std.Refl R] (a : α) : KeepsOk R (pure a : EStateM ε σ α) :=
  fun s => ⟨a, s, rfl, refl_of R s⟩

theorem Keeps.pure [Std.Refl R] (a : α) : Keeps R (pure a : EStateM ε σ α) :=
  (KeepsOk.pure a).keeps

theorem Keeps.throw [Std.Refl R] (e : ε) : Keeps R (throw e : EStateM ε σ α) :=
  fun s => refl_of R s

theorem Keeps.bind [IsTrans σ R] {x : EStateM ε σ α} {f : α → EStateM ε σ β} (hx : Keeps R x)
    (hf : ∀ a, Keeps R (f a)) : Keeps R (x >>= f) := by
  intro s
  have h := hx s
  show R s (finalState (EStateM.bind x f s))
  unfold EStateM.bind
  cases hxs : x s with
  | ok a s' =>
    rw [hxs] at h
    exact trans_of R h (hf a s')
  | error e s' =>
    rw [hxs] at h
    exact h

theorem KeepsOk.bind [IsTrans σ R] {x : EStateM ε σ α} {f : α → EStateM ε σ β}
    (hx : KeepsOk R x) (hf : ∀ a, KeepsOk R (f a)) : KeepsOk R (x >>= f) := by
  intro s
  obtain ⟨a, s', hxs, h⟩ := hx s
  obtain ⟨b, s'', hfs, h'⟩ := hf a s'
  refine ⟨b, s'', ?_, trans_of R h h'⟩
  show EStateM.bind x f s = _
  rw [EStateM.bind, hxs]
  exact hfs

/-- A computation that first reads the state keeps `R` when it does so for
every state it may read. -/
theorem Keeps.get {g : σ → EStateM ε σ α} (hg : ∀ s₀, Keeps R (g s₀)) : Keeps R (get >>= g) :=
  fun s => hg s s

theorem KeepsOk.get {g : σ → EStateM ε σ α} (hg : ∀ s₀, KeepsOk R (g s₀)) :
    KeepsOk R (get >>= g) :=
  fun s => hg s s

theorem KeepsOk.modify {f : σ → σ} (hf : ∀ s, R s (f s)) :
    KeepsOk R (modify f : EStateM ε σ PUnit) :=
  fun s => ⟨⟨⟩, f s, rfl, hf s⟩

end Keeping

/-! ## The arena's top -/

namespace Arena

variable {a : Arena}

@[simp] theorem top_putWord (off : Nat) (w : UInt64) : (a.putWord off w).top = a.top := by
  unfold putWord putWord?
  split <;> simp only [Option.getD_some, Option.getD_none]

/-- Releasing to a mark at or below the top moves the top to the mark. -/
theorem top_release_of_le {k : Nat} (h : k ≤ a.top) : (a.release k).top = k := by
  unfold release
  split
  · omega
  · simp

end Arena

namespace Frame

variable {f : Frame} {a : Arena} {s : Nat}

@[simp] theorem top_put (v : Value) : (f.put a s v).2.top = a.top := by
  rcases put_cases f a s v with ⟨_, _, h⟩ | ⟨_, _, _, h⟩ | ⟨_, _, h⟩ <;> rw [h]
  exact Arena.top_putWord ..

@[simp] theorem mark_putInt (n : Int64) : (f.putInt a s n).1.mark = f.mark := by
  simp only [putInt, putWord]
  split <;> rfl

@[simp] theorem top_putInt (n : Int64) : (f.putInt a s n).2.top = a.top := by
  simp only [putInt, putWord]
  split <;> simp

@[simp] theorem mark_unset : (f.unset s).mark = f.mark := rfl

end Frame

/-! ## Layers of an environment -/

/-- A layer as closing frames see it: a scope, or a frame with the arena top
it releases to. -/
def Layer.mark? : Layer → Option Nat
  | .scope _ => none
  | .frame f => some f.mark

namespace Env

/-- `E'` has the layers of `E`: scopes where `E` has scopes, frames with the
marks of `E`'s frames. An empty environment may have gained a scope, the one
a declaration makes. -/
def SameLayers (E E' : Env) : Prop :=
  E'.map Layer.mark? = E.map Layer.mark? ∨ (E = [] ∧ E'.map Layer.mark? = [none])

theorem SameLayers.refl (E : Env) : E.SameLayers E := .inl rfl

theorem SameLayers.of_map {E E' : Env} (h : E'.map Layer.mark? = E.map Layer.mark?) :
    E.SameLayers E' := .inl h

theorem SameLayers.trans {E₁ E₂ E₃ : Env} (h₁ : E₁.SameLayers E₂) (h₂ : E₂.SameLayers E₃) :
    E₁.SameLayers E₃ := by
  rcases h₁ with h₁ | ⟨rfl, h₁⟩ <;> rcases h₂ with h₂ | ⟨rfl, h₂⟩
  · exact .inl (h₂.trans h₁)
  · -- `E₂` is empty, so `E₁` is too
    have : E₁ = [] := by simpa using h₁
    exact .inr ⟨this, h₂⟩
  · exact .inr ⟨rfl, h₂.trans h₁⟩
  · simp at h₁

/-- Below a layer, the layers are kept exactly. -/
theorem SameLayers.cons {l : Layer} {E E' : Env} (h : SameLayers (l :: E) E') :
    ∃ l' rest, E' = l' :: rest ∧ l'.mark? = l.mark? ∧ rest.map Layer.mark? = E.map Layer.mark? := by
  rcases h with h | ⟨h, _⟩
  · cases E' with
    | nil => simp at h
    | cons l' rest =>
      simp only [List.map_cons, List.cons.injEq] at h
      exact ⟨l', rest, rfl, h.1, h.2⟩
  · cases h

variable {a a' : Arena} {n : String} {v : Value}

/-- An assignment keeps the layers and the arena's top. -/
theorem assign_layers {E E' : Env} (h : assign a E n v = some (E', a')) :
    E'.map Layer.mark? = E.map Layer.mark? ∧ a'.top = a.top := by
  induction E generalizing E' a' with
  | nil => simp [assign] at h
  | cons layer rest ih =>
    cases layer with
    | scope b =>
      rw [assign_scope] at h
      split at h
      · cases h
        exact ⟨rfl, rfl⟩
      · obtain ⟨⟨rest', a₁⟩, hr, he⟩ := Option.map_eq_some_iff.mp h
        cases he
        obtain ⟨hl, ht⟩ := ih hr
        exact ⟨by simp [hl, Layer.mark?], ht⟩
    | frame f =>
      simp only [assign] at h
      split at h
      · cases h
        exact ⟨by simp [Layer.mark?], Frame.top_put _⟩
      · split at h
        · cases h
          exact ⟨by simp [Layer.mark?], rfl⟩
        · obtain ⟨⟨rest', a₁⟩, hr, he⟩ := Option.map_eq_some_iff.mp h
          cases he
          obtain ⟨hl, ht⟩ := ih hr
          exact ⟨by simp [hl, Layer.mark?], ht⟩

/-- A declaration keeps the layers and the arena's top. -/
theorem declare_layers (E : Env) :
    E.SameLayers (declare a E n v).1 ∧ (declare a E n v).2.top = a.top := by
  cases E with
  | nil => exact ⟨.inr ⟨rfl, rfl⟩, rfl⟩
  | cons layer rest =>
    cases layer with
    | scope b => exact ⟨.of_map (by simp [declare, Layer.mark?]), rfl⟩
    | frame f =>
      simp only [declare]
      split
      · exact ⟨.of_map (by simp [Layer.mark?]), Frame.top_put _⟩
      · exact ⟨.of_map (by simp [Layer.mark?]), rfl⟩

end Env

/-! ## Compiled code runs inside its frame -/

/-- From `w` to `w'`, compiled code kept the arena's top, the frame's mark and
the layers of the environment around the frame. -/
structure Work.Steady (w w' : Work) : Prop where
  top : w'.arena.top = w.arena.top
  mark : w'.frame.mark = w.frame.mark
  layers : w'.parent.map Layer.mark? = w.parent.map Layer.mark?

instance : Std.Refl Work.Steady := ⟨fun _ => ⟨rfl, rfl, rfl⟩⟩

instance : IsTrans Work Work.Steady :=
  ⟨fun _ _ _ h₁ h₂ => ⟨h₂.top.trans h₁.top, h₂.mark.trans h₁.mark, h₂.layers.trans h₁.layers⟩⟩

namespace Act

variable {s : Subject}

/-- A computation that only reads the state. -/
theorem steady_of_final {α : Type} {x : Act α} (h : ∀ w, finalState (x w) = w) :
    Keeps Work.Steady x := fun w => by rw [h w]; exact refl_of _ w

theorem steady_get? (slot : Nat) : KeepsOk Work.Steady (get? slot) :=
  fun _ => ⟨_, _, rfl, refl_of _ _⟩

theorem steady_int (slot : Nat) : KeepsOk Work.Steady (int slot) :=
  fun _ => ⟨_, _, rfl, refl_of _ _⟩

theorem steady_put (slot : Nat) (v : Value) : KeepsOk Work.Steady (put slot v) :=
  fun _ => ⟨(), _, rfl, ⟨Frame.top_put v, Frame.put_mark, rfl⟩⟩

theorem steady_putInt (slot : Nat) (n : Int64) : KeepsOk Work.Steady (putInt slot n) :=
  fun _ => ⟨(), _, rfl, ⟨Frame.top_putInt n, Frame.mark_putInt n, rfl⟩⟩

theorem steady_lookup (i node : Nat) : Keeps Work.Steady (lookup s i node) :=
  steady_of_final fun w => by unfold lookup; split <;> rfl

theorem steady_read (i : Nat) (slot : Option Nat) (node : Nat) :
    Keeps Work.Steady (read s i slot node) := by
  unfold read
  cases slot with
  | none => exact steady_lookup i node
  | some sl =>
    refine (steady_get? sl).keeps.bind fun r => ?_
    cases r with
    | some v => exact Keeps.pure v
    | none => exact steady_lookup i node

theorem steady_write (i : Nat) (slot : Option Nat) (node : Nat) (v : Value) :
    Keeps Work.Steady (write s i slot node v) := by
  have hvia : ∀ w, Work.Steady w (finalState (write.viaParent s i node v w)) := by
    intro w
    unfold write.viaParent
    split
    · rename_i env a h
      obtain ⟨hl, ht⟩ := Env.assign_layers h
      exact ⟨ht, rfl, hl⟩
    · exact refl_of _ w
  intro w
  unfold write
  split
  · split
    · exact (steady_put _ v).keeps w
    · exact hvia w
  · exact hvia w

theorem steady_located (node : Nat) (r : Except Error Value) : Keeps Work.Steady (located s node r) := by
  cases r with
  | ok v => exact Keeps.pure v
  | error e => exact Keeps.throw _

theorem steady_mapError {α : Type} {f : Error → Error} {act : Act α} (h : Keeps Work.Steady act) :
    Keeps Work.Steady (mapError f act) := by
  intro w
  have hw := h w
  unfold mapError
  split <;> simp_all [finalState]

theorem steady_always {α : Type} {act : Act α} {cleanup : Work → Work} (h : Keeps Work.Steady act)
    (hc : ∀ w, Work.Steady w (cleanup w)) : Keeps Work.Steady (always act cleanup) := by
  intro w
  have hw := h w
  unfold always
  split <;> rename_i heq <;> rw [heq] at hw <;> exact trans_of _ hw (hc _)

end Act

/-- A fold of steps that each keep a relation keeps it. -/
theorem steady_foldl {β : Type} {f : Work → β → Work} (hf : ∀ w x, Work.Steady w (f w x)) :
    ∀ (xs : List β) (w : Work), Work.Steady w (xs.foldl f w)
  | [], w => refl_of _ w
  | x :: xs, w => trans_of _ (hf w x) (steady_foldl hf xs (f w x))

mutual
/-- Evaluating compiled expressions only reads the state. -/
theorem Calc.steady_eval (s : Subject) : (c : Calc) → Keeps Work.Steady (c.eval s)
  | .const v => by simp only [Calc.eval]; exact Keeps.pure v
  | .hoisted k => by
    intro w
    simp only [Calc.eval]
    split <;> exact refl_of _ w
  | .array es => by
    simp only [Calc.eval]
    exact (Calc.steady_evalAll s es).bind fun _ => Keeps.pure _
  | .var i slot node => by simp only [Calc.eval]; exact Act.steady_read i slot node
  | .logic short op x y node => by
    simp only [Calc.eval]
    refine (Calc.steady_eval s x).bind fun a => ?_
    split
    · exact Keeps.pure _
    · exact (Calc.steady_eval s y).bind fun b => Act.steady_located node _
  | .scaled op shifts litLeft x y node => by
    simp only [Calc.eval]
    refine (Calc.steady_eval s x).bind fun a => (Calc.steady_eval s y).bind fun b => ?_
    split
    · exact Keeps.pure _
    · exact Act.steady_located node _
  | .binary op x y node => by
    simp only [Calc.eval]
    exact (Calc.steady_eval s x).bind fun a => (Calc.steady_eval s y).bind fun b =>
      Act.steady_located node _
  | .unary op x node => by
    simp only [Calc.eval]
    exact (Calc.steady_eval s x).bind fun a => Act.steady_located node _
  | .index x i node => by
    simp only [Calc.eval]
    exact (Calc.steady_eval s x).bind fun a => (Calc.steady_eval s i).bind fun k =>
      Act.steady_located node _

theorem Calc.steady_evalAll (s : Subject) : (cs : List Calc) → Keeps Work.Steady (Calc.evalAll s cs)
  | [] => by simp only [Calc.evalAll]; exact Keeps.pure _
  | c :: cs => by
    simp only [Calc.evalAll]
    exact (Calc.steady_eval s c).bind fun _ => (Calc.steady_evalAll s cs).bind fun _ => Keeps.pure _
end

theorem Bound.steady_eval (s : Subject) (b : Bound) : Keeps Work.Steady (b.eval s) := by
  unfold Bound.eval
  refine (Calc.steady_eval s b.value).bind fun v => ?_
  split
  · exact Keeps.pure _
  · exact Keeps.throw _

theorem steady_flushLane (j slot : Nat) (op : Op) : KeepsOk Work.Steady (flushLane j slot op) := by
  intro w
  unfold flushLane
  split
  · exact ⟨(), _, rfl, ⟨Frame.top_putInt _, Frame.mark_putInt _, rfl⟩⟩
  · exact ⟨(), w, rfl, refl_of _ w⟩

theorem steady_openLanes (lanes : List (Nat × Op)) (width : Nat) :
    KeepsOk Work.Steady (openLanes lanes width) :=
  fun _ => ⟨(), _, rfl, ⟨rfl, rfl, rfl⟩⟩

theorem steady_closeLanes (lanes : List (Nat × Op)) (w : Work) : Work.Steady w (closeLanes lanes w) := by
  unfold closeLanes
  refine steady_foldl (fun w x => ?_) _ w
  obtain ⟨_, w', h, hs⟩ := steady_flushLane x.2 x.1.1 x.1.2 w
  simp only [h]
  exact hs

theorem steady_unscope (locals : List Nat) (w : Work) : Work.Steady w (unscope locals w) := by
  have hmark : ∀ (ls : List Nat) (f : Frame), (ls.foldl Frame.unset f).mark = f.mark := by
    intro ls
    induction ls with
    | nil => intro f; rfl
    | cons k ks ih => intro f; exact (ih _).trans Frame.mark_unset
  exact ⟨rfl, hmark locals w.frame, rfl⟩

theorem Update.steady_exec (s : Subject) (u : Update) : Keeps Work.Steady (u.exec s) := by
  cases u with
  | store i slot node v =>
    simp only [Update.exec]
    exact (Calc.steady_eval s v).bind fun x => Act.steady_write i slot node x
  | compound i slot node op rhs shifts =>
    simp only [Update.exec]
    refine (Act.steady_read i slot node).bind fun cur => (Calc.steady_eval s rhs).bind fun y => ?_
    split
    · exact (Keeps.pure _).bind fun x => Act.steady_write i slot node x
    · exact (Act.steady_located node _).bind fun x => Act.steady_write i slot node x

/-- Every part of compiled code run with `fuel` keeps the arena's top, the
frame's mark and the layers around the frame. -/
structure CodeSteady (s : Subject) (width fuel : Nat) : Prop where
  exec : ∀ c, Keeps Work.Steady (Code.exec s width fuel c)
  execAll : ∀ cs, Keeps Work.Steady (Code.execAll s width fuel cs)
  range : ∀ node body counter step cur trips,
    Keeps Work.Steady (Code.innerRange s width fuel node body counter step cur trips)
  each : ∀ node body slot elems, Keeps Work.Steady (Code.innerEach s width fuel node body slot elems)
  cond : ∀ node body c, Keeps Work.Steady (Code.innerWhile s width fuel node body c)

namespace CodeSteady

variable {s : Subject} {width f : Nat}

/-- One iteration of a nested loop is steady when its body is. -/
theorem step_of {body : Act Signal} (h : Keeps Work.Steady body) (node : Nat) :
    Keeps Work.Steady (Code.innerStep s node body) := by
  unfold Code.innerStep
  refine (Act.steady_mapError h).bind fun sig => ?_
  split <;> exact Keeps.pure _

theorem zero : CodeSteady s width 0 where
  exec _ := by simp only [Code.exec]; exact Keeps.throw _
  execAll _ := by simp only [Code.execAll]; exact Keeps.throw _
  range _ _ _ _ _ _ := by simp only [Code.innerRange]; exact Keeps.throw _
  each _ _ _ _ := by simp only [Code.innerEach]; exact Keeps.throw _
  cond _ _ _ := by simp only [Code.innerWhile]; exact Keeps.throw _

end CodeSteady

namespace CodeSteady

variable {s : Subject} {width f : Nat}

theorem exec_succ (ih : CodeSteady s width f) (c : Code) :
    Keeps Work.Steady (Code.exec s width (f + 1) c) := by
  cases c with
  | put slot v =>
    simp only [Code.exec]
    exact (Calc.steady_eval s v).bind fun x => (Act.steady_put slot x).keeps.bind fun _ =>
      Keeps.pure _
  | update u =>
    simp only [Code.exec]
    exact (Update.steady_exec s u).bind fun _ => Keeps.pure _
  | bump i slot node down =>
    simp only [Code.exec]
    refine Keeps.get fun w => ?_
    split
    · exact (Act.steady_int slot).keeps.bind fun _ => (Act.steady_putInt slot _).keeps.bind fun _ =>
        Keeps.pure _
    · exact (Act.steady_read i _ node).bind fun _ => (Act.steady_located node _).bind fun _ =>
        (Act.steady_write i _ node _).bind fun _ => Keeps.pure _
  | branch c thn els unlikely =>
    simp only [Code.exec]
    refine (Calc.steady_eval s c).bind fun v => ?_
    split
    · split
      · exact ih.execAll els
      · exact ih.execAll thn
    · split
      · exact ih.execAll thn
      · exact ih.execAll els
  | brk => simp only [Code.exec]; exact Keeps.pure _
  | cont => simp only [Code.exec]; exact Keeps.pure _
  | ret v =>
    cases v with
    | none => simp only [Code.exec]; exact Keeps.pure _
    | some v =>
      simp only [Code.exec]
      exact (Calc.steady_eval s v).bind fun _ => Keeps.pure _
  | eval x =>
    simp only [Code.exec]
    exact (Calc.steady_eval s x).bind fun _ => Keeps.pure _
  | reduce j slot op contrib node accLeft seq =>
    simp only [Code.exec]
    refine Keeps.get fun w => ?_
    split
    · exact (Update.steady_exec s seq).bind fun _ => Keeps.pure _
    · refine (Calc.steady_eval s contrib).bind fun y => ?_
      split
      · -- an integer contribution goes to its lane
        exact (KeepsOk.modify fun _ => ⟨rfl, rfl, rfl⟩).keeps.bind fun _ => Keeps.pure _
      · exact (steady_flushLane j slot op).keeps.bind fun _ => (Act.steady_int slot).keeps.bind
          fun _ => (Act.steady_located node _).bind fun _ => (Act.steady_put slot _).keeps.bind
          fun _ => Keeps.pure _
  | nested node locals head body =>
    cases head with
    | range start stop step counter =>
      simp only [Code.exec]
      refine (Bound.steady_eval s start).bind fun a => (Bound.steady_eval s stop).bind fun z => ?_
      have hrun : ∀ st, Keeps Work.Steady (pure st >>= fun st =>
          Act.always (Code.innerRange s width f node body counter st a
            ({ start := a, stop := z, step := st } : Header).trips) (unscope locals)) :=
        fun st => (Keeps.pure st).bind fun _ => Act.steady_always (ih.range _ _ _ _ _ _)
          (steady_unscope locals)
      split
      · exact hrun 1
      · refine (Bound.steady_eval s _).bind fun st => ?_
        split
        · exact (Keeps.throw _).bind fun _ => hrun st
        · exact hrun st
    | each coll slot =>
      simp only [Code.exec]
      refine (Calc.steady_eval s coll).bind fun v => ?_
      split
      · exact Act.steady_always (ih.each _ _ _ _) (steady_unscope locals)
      · exact Keeps.throw _
    | cond c =>
      simp only [Code.exec]
      exact Act.steady_always (ih.cond _ _ _) (steady_unscope locals)

theorem succ (ih : CodeSteady s width f) : CodeSteady s width (f + 1) :=
  have execAll : ∀ cs, Keeps Work.Steady (Code.execAll s width (f + 1) cs) := fun cs => by
    cases cs with
    | nil => simp only [Code.execAll]; exact Keeps.pure _
    | cons c rest =>
      simp only [Code.execAll]
      refine (ih.exec c).bind fun sig => ?_
      split
      · exact ih.execAll rest
      · exact Keeps.pure _
  { exec := exec_succ ih
    execAll := execAll
    range := fun node body counter step cur trips => by
      cases trips with
      | zero => simp only [Code.innerRange]; exact Keeps.pure _
      | succ t =>
        simp only [Code.innerRange]
        refine (Act.steady_putInt counter cur).keeps.bind fun _ =>
          (step_of (ih.execAll body) node).bind fun r => ?_
        split
        · exact Keeps.pure _
        · exact ih.range _ _ _ _ _ _
    each := fun node body slot elems => by
      cases elems with
      | nil => simp only [Code.innerEach]; exact Keeps.pure _
      | cons e rest =>
        simp only [Code.innerEach]
        refine (Act.steady_put slot e).keeps.bind fun _ =>
          (step_of (ih.execAll body) node).bind fun r => ?_
        split
        · exact Keeps.pure _
        · exact ih.each _ _ _ _
    cond := fun node body c => by
      simp only [Code.innerWhile]
      refine (Act.steady_mapError (Calc.steady_eval s c)).bind fun v => ?_
      split
      · exact Keeps.pure _
      · refine (step_of (ih.execAll body) node).bind fun r => ?_
        split
        · exact Keeps.pure _
        · exact ih.cond _ _ _ }

end CodeSteady

/-- Compiled code with any fuel keeps the arena's top, the frame's mark and
the layers around the frame. -/
theorem codeSteady (s : Subject) (width : Nat) : ∀ fuel, CodeSteady s width fuel
  | 0 => CodeSteady.zero
  | f + 1 => (codeSteady s width f).succ

namespace Entry

variable (e : Entry) (s : Subject)

theorem steady_iteration (fuel n : Nat) : KeepsOk Work.Steady (e.iteration s fuel n) := by
  intro w
  have h := (codeSteady s e.width fuel).execAll e.body { w with iter := n }
  unfold Entry.iteration
  split <;> rename_i heq <;> rw [heq] at h <;> exact ⟨_, _, rfl, ⟨h.top, h.mark, h.layers⟩⟩

theorem steady_range (counter : Nat) (step : Int64) :
    ∀ fuel cur trips n, KeepsOk Work.Steady (e.range s counter step fuel cur trips n)
  | 0, _, _, _ => by simp only [Entry.range]; exact KeepsOk.pure _
  | _ + 1, _, 0, _ => by simp only [Entry.range]; exact KeepsOk.pure _
  | f + 1, cur, t + 1, n => by
    simp only [Entry.range]
    refine (Act.steady_putInt counter cur).bind fun _ => (steady_iteration e s f n).bind fun r => ?_
    split
    · exact KeepsOk.pure _
    · exact steady_range counter step f (cur + step) t (n + 1)

theorem steady_each (slot : Nat) :
    ∀ fuel elems n, KeepsOk Work.Steady (e.each s slot fuel elems n)
  | 0, _, _ => by simp only [Entry.each]; exact KeepsOk.pure _
  | _ + 1, [], _ => by simp only [Entry.each]; exact KeepsOk.pure _
  | f + 1, x :: rest, n => by
    simp only [Entry.each]
    refine (Act.steady_put slot x).bind fun _ => (steady_iteration e s f n).bind fun r => ?_
    split
    · exact KeepsOk.pure _
    · exact steady_each slot f rest (n + 1)

theorem steady_whileTrue (c : Calc) : ∀ fuel n, Keeps Work.Steady (e.whileTrue s c fuel n)
  | 0, _ => by simp only [Entry.whileTrue]; exact Keeps.pure _
  | f + 1, n => by
    intro w
    have hc := Calc.steady_eval s c w
    unfold Entry.whileTrue
    split
    · rename_i heq
      rw [heq] at hc
      exact hc
    · rename_i v w₁ heq
      rw [heq] at hc
      split
      · exact hc
      · obtain ⟨r, w₂, hi, hs⟩ := steady_iteration e s f n w₁
        rw [hi]
        cases r with
        | some r => exact trans_of _ hc hs
        | none => exact trans_of _ hc (trans_of _ hs (steady_whileTrue c f (n + 1) w₂))

theorem steady_run (h : Header) (fuel : Nat) : Keeps Work.Steady (e.run s h fuel) := by
  unfold Entry.run
  simp only [Entry.unrolled_eq_range]
  refine (KeepsOk.keeps (fun _ => ⟨(), _, rfl, ⟨rfl, rfl, rfl⟩⟩)).bind fun _ => ?_
  split
  · split
    · exact (steady_range e s _ _ _ _ _ _).keeps
    · exact (steady_openLanes _ _).keeps.bind fun _ =>
        Act.steady_always (steady_range e s _ _ _ _ _ _).keeps (steady_closeLanes _)
  · exact (steady_each e s _ _ _ _).keeps
  · exact steady_whileTrue e s _ _ _

end Entry

/-- An artifact runs its entry, or refuses a frame it does not fit before
touching anything. -/
theorem Artifact.steady_run (a : Artifact) (s : Subject) (h : Header) (fuel : Nat) :
    Keeps Work.Steady (a.run s h fuel) := by
  intro w
  unfold Artifact.run
  split
  · exact Entry.steady_run a.entry s h fuel w
  · exact refl_of _ w

/-! ## Balanced loop memory -/

/-- From `mem` to `mem'` the manager came back to as many open frames and to
the same top of its arena, and closed every frame it opened in between. -/
structure Manager.Balanced (mem mem' : Manager) : Prop where
  depth : mem'.depth = mem.depth
  used : mem'.arena.top = mem.arena.top
  closed : mem'.stats.loopsEntered + mem.stats.loopsExited =
    mem.stats.loopsEntered + mem'.stats.loopsExited

/-- What a call of the interpreter leaves: balanced loop memory, and the
environment's layers. -/
structure Machine.Tidy (m m' : Machine) : Prop where
  mem : m.mem.Balanced m'.mem
  layers : m.env.SameLayers m'.env

instance : Std.Refl Machine.Tidy := ⟨fun _ => ⟨⟨rfl, rfl, rfl⟩, .refl _⟩⟩

instance : IsTrans Machine Machine.Tidy :=
  ⟨fun _ _ _ h₁ h₂ => ⟨⟨h₂.mem.depth.trans h₁.mem.depth, h₂.mem.used.trans h₁.mem.used,
    by have := h₁.mem.closed; have := h₂.mem.closed; omega⟩, h₁.layers.trans h₂.layers⟩⟩

/-- A step that leaves the manager and the environment alone is tidy. -/
theorem Machine.Tidy.of_eq {m m' : Machine} (hmem : m'.mem = m.mem) (henv : m'.env = m.env) :
    m.Tidy m' :=
  ⟨⟨by rw [hmem], by rw [hmem], by rw [hmem]⟩, .of_map (by rw [henv])⟩

namespace Run

theorem tidy_lookup (n : String) : KeepsOk Machine.Tidy (lookup n) :=
  fun m => ⟨_, m, rfl, refl_of _ m⟩

theorem tidy_declare (n : String) (v : Value) : KeepsOk Machine.Tidy (declare n v) :=
  fun m => ⟨(), _, rfl,
    ⟨⟨rfl, (Env.declare_layers (a := m.mem.arena) (n := n) (v := v) m.env).2, rfl⟩,
      (Env.declare_layers m.env).1⟩⟩

theorem tidy_assign (n : String) (v : Value) (p : Pos) : Keeps Machine.Tidy (assign n v p) := by
  intro m
  unfold assign
  split
  · rename_i env a h
    obtain ⟨hl, ht⟩ := Env.assign_layers h
    exact ⟨⟨rfl, ht, rfl⟩, .of_map hl⟩
  · exact refl_of _ m

theorem tidy_emit (t : String) : KeepsOk Machine.Tidy (emit t) :=
  fun _ => ⟨(), _, rfl, .of_eq rfl rfl⟩

theorem tidy_located (p : Pos) (r : Except Error Value) : Keeps Machine.Tidy (located p r) := by
  cases r with
  | ok v => exact Keeps.pure v
  | error e => exact Keeps.throw _

theorem tidy_dispatch {α : Type} [Inhabited α] (act : Dispatch α) :
    KeepsOk Machine.Tidy (dispatch act) := by
  intro m
  unfold dispatch
  split
  · exact ⟨_, _, rfl, .of_eq rfl rfl⟩
  · exact ⟨_, _, rfl, refl_of _ m⟩

theorem tidy_attempt {α : Type} {x : Run α} (hx : Keeps Machine.Tidy x) :
    KeepsOk Machine.Tidy (attempt x) := by
  intro m
  have h := hx m
  unfold attempt
  split <;> rename_i heq <;> rw [heq] at h <;> exact ⟨_, _, rfl, h⟩

/-- Opening a layer around a tidy computation and dropping it again is tidy:
the computation kept the layer, so dropping it leaves the layers below. -/
theorem tidy_within {α : Type} {x : Run α} (layer : Layer) (hx : Keeps Machine.Tidy x) :
    Keeps Machine.Tidy (within layer x) := by
  intro m
  have h := hx { m with env := layer :: m.env }
  have hdrop : ∀ m' : Machine, Machine.Tidy { m with env := layer :: m.env } m' →
      m.Tidy { m' with env := m'.env.drop 1 } := by
    intro m' h'
    obtain ⟨l', rest, henv, -, hrest⟩ := h'.layers.cons
    refine ⟨h'.mem, .of_map ?_⟩
    simp only [henv, List.drop_succ_cons, List.drop_zero]
    exact hrest
  unfold within
  split <;> rename_i heq <;> rw [heq] at h <;> exact hdrop _ h

end Run

mutual
/-- Evaluating an expression leaves loop memory and the layers alone. -/
theorem tidy_evalExpr : (e : Expr) → Keeps Machine.Tidy (evalExpr e)
  | .int _ n => by simp only [evalExpr]; exact Keeps.pure _
  | .float _ x => by simp only [evalExpr]; exact Keeps.pure _
  | .bool _ b => by simp only [evalExpr]; exact Keeps.pure _
  | .array _ es => by
    simp only [evalExpr]
    exact (tidy_evalExprs es).bind fun _ => Keeps.pure _
  | .ident p n => by
    simp only [evalExpr]
    refine (Run.tidy_lookup n).keeps.bind fun r => ?_
    cases r with
    | some v => exact Keeps.pure v
    | none => exact Keeps.throw _
  | .binary p op x y => by
    simp only [evalExpr]
    refine (tidy_evalExpr x).bind fun a => ?_
    split
    · exact Keeps.pure _
    split
    · exact Keeps.pure _
    exact (tidy_evalExpr y).bind fun b => Run.tidy_located p _
  | .unary p op x => by
    simp only [evalExpr]
    exact (tidy_evalExpr x).bind fun a => Run.tidy_located p _
  | .index p x i => by
    simp only [evalExpr]
    exact (tidy_evalExpr x).bind fun a => (tidy_evalExpr i).bind fun j => Run.tidy_located p _
  | .call p f args => by
    simp only [evalExpr]
    cases Builtin.ofName? f with
    | none => exact Keeps.throw _
    | some b =>
      refine (tidy_evalExprs args).bind fun vs => ?_
      cases b.apply vs with
      | ok r => exact (Run.tidy_emit r.2).keeps.bind fun _ => Keeps.pure _
      | error e => exact Keeps.throw _

/-- Evaluating a list of expressions leaves loop memory and the layers alone. -/
theorem tidy_evalExprs : (es : List Expr) → Keeps Machine.Tidy (evalExprs es)
  | [] => by simp only [evalExprs]; exact Keeps.pure _
  | e :: es => by
    simp only [evalExprs]
    exact (tidy_evalExpr e).bind fun _ => (tidy_evalExprs es).bind fun _ => Keeps.pure _
end

theorem tidy_evalBound (e : Expr) : Keeps Machine.Tidy (evalBound e) := by
  unfold evalBound
  refine (tidy_evalExpr e).bind fun v => ?_
  split
  · exact Keeps.pure _
  · exact Keeps.throw _

theorem tidy_evalHeader (l : Loop) : Keeps Machine.Tidy (evalHeader l) := by
  unfold evalHeader
  split
  · refine (tidy_evalBound _).bind fun start => (tidy_evalBound _).bind fun stop => ?_
    split
    · exact Keeps.pure _
    · refine (tidy_evalBound _).bind fun step => ?_
      split
      · exact Keeps.pure _
      · exact Keeps.throw _
  · refine (tidy_evalExpr _).bind fun v => ?_
    split
    · exact Keeps.pure _
    · exact Keeps.throw _
  · exact Keeps.pure _

/-! ## Opening and closing a frame -/

/-- A fold whose every step keeps `μ` keeps it. -/
theorem foldl_measure {β γ δ : Type} (μ : β → δ) {g : β → γ → β} (hg : ∀ p x, μ (g p x) = μ p) :
    ∀ (xs : List γ) (p : β), μ (xs.foldl g p) = μ p
  | [], _ => rfl
  | x :: xs, p => by rw [List.foldl_cons, foldl_measure μ hg xs, hg]

/-- An allocation of 8-aligned bytes moves the top up. -/
theorem Arena.top_le_allocate {a a' : Arena} {size : Int} {off : Nat}
    (h : a.allocate size 8 = .ok (off, a')) : a.top ≤ a'.top := by
  have hpow : Arena.isPow2 8 = true := by decide
  simp only [Arena.allocate, hpow, Bool.not_true, Bool.false_eq_true, if_false] at h
  split at h
  · cases h
  · injection h with h
    obtain ⟨rfl, rfl⟩ := Prod.mk.inj h
    have h8 : (8 : Int).toNat = 8 := rfl
    show a.top ≤ Arena.alignUp a.top (8 : Int).toNat + size.toNat
    simp only [Arena.alignUp, h8]
    omega

namespace Manager

/-- The copy-in keeps the frame's mark and the arena's top. -/
theorem copyIn_mark_top (a : Arena) (parent : Env) (f : Frame) :
    (copyIn a parent f).1.mark = f.mark ∧ (copyIn a parent f).2.top = a.top := by
  unfold copyIn
  rw [← Array.foldl_toList]
  refine Prod.mk.inj (foldl_measure (fun p : Frame × Arena => (p.1.mark, p.2.top)) ?_ _ (f, a))
  rintro ⟨f, a⟩ lv
  dsimp only
  split
  · rfl
  · split
    · simp only [Frame.put_mark, Frame.top_put]
    · rfl

/-- The write-back keeps the layers of the environment it writes through and
the arena's top. -/
theorem writeBack_layers (a : Arena) (parent : Env) (f : Frame) :
    (writeBack a parent f).1.map Layer.mark? = parent.map Layer.mark? ∧
      (writeBack a parent f).2.1.top = a.top := by
  unfold writeBack
  rw [← Array.foldl_toList]
  refine Prod.mk.inj (foldl_measure (fun p : Env × Arena × Option Error => (p.1.map Layer.mark?, p.2.1.top))
    ?_ _ (parent, a, none))
  rintro ⟨env, a, err⟩ lv
  dsimp only
  split
  · rfl
  · split
    · rfl
    · split
      · rename_i h
        obtain ⟨hl, ht⟩ := Env.assign_layers h
        rw [hl, ht]
      · rfl

/-- What opening a frame `fr` does to the manager: one more frame open, and
one more entered; the frame remembers the top, which only grows. -/
structure Opens (mem : Manager) (fr : Frame) (mem' : Manager) : Prop where
  depth : mem'.depth = mem.depth + 1
  mark : fr.mark = mem.arena.top
  top : mem.arena.top ≤ mem'.arena.top
  entered : mem'.stats.loopsEntered = mem.stats.loopsEntered + 1
  exited : mem'.stats.loopsExited = mem.stats.loopsExited

theorem opens_of_enter {mem mem' : Manager} {l : Loop} {sh : Shape} {parent : Env} {fr : Frame}
    (h : mem.enter l sh parent = .ok (fr, mem')) : mem.Opens fr mem' := by
  unfold enter at h
  split at h
  · cases h
  · dsimp only at h
    -- the slots are preallocated in the arena, or would be but it is full, or
    -- live on the heap; only the first moves the top
    split at h
    · split at h
      · rename_i hal
        simp only [Except.ok.injEq, Prod.mk.injEq] at h
        obtain ⟨rfl, rfl⟩ := h
        refine ⟨rfl, (copyIn_mark_top _ _ _).1, ?_, by split <;> rfl, rfl⟩
        rw [(copyIn_mark_top _ _ _).2]
        exact Arena.top_le_allocate hal
      · simp only [Except.ok.injEq, Prod.mk.injEq] at h
        obtain ⟨rfl, rfl⟩ := h
        exact ⟨rfl, (copyIn_mark_top _ _ _).1, (copyIn_mark_top _ _ _).2.ge, by split <;> rfl, rfl⟩
    · simp only [Except.ok.injEq, Prod.mk.injEq] at h
      obtain ⟨rfl, rfl⟩ := h
      exact ⟨rfl, (copyIn_mark_top _ _ _).1, (copyIn_mark_top _ _ _).2.ge, by split <;> rfl, rfl⟩

end Manager

/-- `m'` is `m` with frame `fr` opened, and tidy steps taken since: one more
frame open and one more entered than closed, the frame's mark at the top of
`m`, and the layers of `m`. -/
structure Machine.Opened (fr : Frame) (m m' : Machine) : Prop where
  layers : m.env.SameLayers m'.env
  depth : m'.mem.depth = m.mem.depth + 1
  mark : fr.mark = m.mem.arena.top
  top : m.mem.arena.top ≤ m'.mem.arena.top
  closed : m'.mem.stats.loopsEntered + m.mem.stats.loopsExited =
    m.mem.stats.loopsEntered + 1 + m'.mem.stats.loopsExited

namespace Machine.Opened

variable {fr : Frame} {m m₁ m₂ : Machine}

theorem of_opens {mem : Manager} (h : m.mem.Opens fr mem) : Opened fr m { m with mem := mem } :=
  ⟨.refl _, h.depth, h.mark, h.top, by rw [h.entered, h.exited]⟩

theorem tidy (h : Opened fr m m₁) (h' : m₁.Tidy m₂) : Opened fr m m₂ where
  layers := h.layers.trans h'.layers
  depth := h'.mem.depth.trans h.depth
  mark := h.mark
  top := h'.mem.used ▸ h.top
  closed := by have := h.closed; have := h'.mem.closed; omega

/-- Closing a frame with the mark of `fr` undoes the opening: the write-back
keeps the layers and the top, and the release goes back to the mark. -/
theorem close (h : Opened fr m m₁) {fr' : Frame} (hmark : fr'.mark = fr.mark) :
    m.Tidy (finalState (Run.closeFrame fr' m₁)) := by
  obtain ⟨hl, ht⟩ := Manager.writeBack_layers m₁.mem.arena m₁.env fr'
  have hle : fr'.mark ≤ (Manager.writeBack m₁.mem.arena m₁.env fr').2.1.top := by
    rw [ht, hmark, h.mark]
    exact h.top
  rw [Run.closeFrame_eq]
  refine ⟨⟨?_, ?_, ?_⟩, h.layers.trans (.of_map hl)⟩
  · show m₁.mem.depth - 1 = m.mem.depth
    rw [h.depth]
    rfl
  · show ((Manager.writeBack m₁.mem.arena m₁.env fr').2.1.release fr'.mark).top = m.mem.arena.top
    rw [Arena.top_release_of_le hle, hmark, h.mark]
  · show m₁.mem.stats.loopsEntered + m.mem.stats.loopsExited =
      m.mem.stats.loopsEntered + (m₁.mem.stats.loopsExited + 1)
    have := h.closed
    omega

end Machine.Opened

namespace Run

variable {α β : Type} {fr : Frame}

/-- `x` runs in the frame opened as `fr`: it returns, with a frame of the
same mark, and is tidy. -/
def Framed (fr : Frame) (x : Run (α × Frame)) : Prop :=
  ∀ m, ∃ p m', x m = .ok p m' ∧ p.2.mark = fr.mark ∧ m.Tidy m'

/-- `x`, started with frame `fr` open, closes it: it ends tidy with respect
to the state before the opening. -/
def Closes (fr : Frame) (x : Run β) : Prop :=
  ∀ m m₁, Machine.Opened fr m m₁ → m.Tidy (finalState (x m₁))

/-- Opening a frame is tidy when what follows is tidy if the opening failed,
and closes the frame if it succeeded. -/
theorem tidy_openFrame {l : Loop} {sh : Shape} {K : Except Error Frame → Run β}
    (herr : ∀ e, Keeps Machine.Tidy (K (.error e))) (hok : ∀ fr, Closes fr (K (.ok fr))) :
    Keeps Machine.Tidy (openFrame l sh >>= K) := by
  intro m
  show m.Tidy (finalState (EStateM.bind (openFrame l sh) K m))
  rcases henter : m.mem.enter l sh m.env with e | ⟨fr, mem⟩
  · have hopen : openFrame l sh m = .ok (.error e) m := by simp only [openFrame, henter]
    rw [EStateM.bind, hopen]
    exact herr e m
  · rw [EStateM.bind, openFrame_of_enter henter]
    exact hok fr m _ (.of_opens (Manager.opens_of_enter henter))

theorem Closes.bind {x : Run (α × Frame)} {g : α × Frame → Run β} (hx : Framed fr x)
    (hg : ∀ p : α × Frame, p.2.mark = fr.mark → Closes fr (g p)) : Closes fr (x >>= g) := by
  intro m m₁ h
  obtain ⟨p, m₂, hxm, hmark, ht⟩ := hx m₁
  show m.Tidy (finalState (EStateM.bind x g m₁))
  rw [EStateM.bind, hxm]
  exact hg p hmark m m₂ (h.tidy ht)

/-- A tidy step that returns, with `fr` open, then a computation that closes
`fr`, closes it. -/
theorem Closes.tidy_bind {γ : Type} {x : Run γ} {g : γ → Run β} (hx : KeepsOk Machine.Tidy x)
    (hg : ∀ c, Closes fr (g c)) : Closes fr (x >>= g) := by
  intro m m₁ h
  obtain ⟨c, m₂, hxm, ht⟩ := hx m₁
  show m.Tidy (finalState (EStateM.bind x g m₁))
  rw [EStateM.bind, hxm]
  exact hg c m m₂ (h.tidy ht)

/-- Closing a frame with the mark of `fr`, then going on tidily, closes `fr`. -/
theorem closes_closeFrame {fr' : Frame} {K : Option Error → Run β} (hmark : fr'.mark = fr.mark)
    (hK : ∀ err, Keeps Machine.Tidy (K err)) : Closes fr (closeFrame fr' >>= K) := by
  intro m m₁ h
  have hclose := h.close hmark
  rw [closeFrame_eq] at hclose
  show m.Tidy (finalState (EStateM.bind (closeFrame fr') K m₁))
  rw [EStateM.bind, closeFrame_eq]
  exact trans_of _ hclose (hK _ _)

/-- Interpreted iterations in a frame: they keep the layers, so the frame on
top when they return is one with the mark of `fr`. -/
theorem framed_inFrame {x : Run α} (hx : KeepsOk Machine.Tidy x) : Framed fr (inFrame fr x) := by
  intro m
  obtain ⟨a, m', hxm, ht⟩ := hx { m with env := .frame fr :: m.env }
  obtain ⟨l', rest, henv, hl', hrest⟩ := ht.layers.cons
  cases l' with
  | scope b => simp [Layer.mark?] at hl'
  | frame fr' =>
    refine ⟨(a, fr'), { m' with env := rest }, inFrame_of_ok hxm henv, ?_, ⟨ht.mem, .of_map hrest⟩⟩
    simpa [Layer.mark?] using hl'

/-- Compiled code hands back the work it ended with, whether it returned or
failed. -/
theorem compiled_final (a : Artifact) (sub : Subject) (h : Header) (fuel : Nat) (m : Machine) :
    let w := finalState (a.run sub h fuel { frame := fr, parent := m.env, arena := m.mem.arena })
    ∃ pass, compiled fr a sub h fuel m =
      .ok (pass, w.frame) { m with env := w.parent, mem := { m.mem with arena := w.arena } } := by
  intro w
  unfold compiled
  cases hr : a.run sub h fuel { frame := fr, parent := m.env, arena := m.mem.arena } <;>
    simp only [w, hr, finalState] <;> exact ⟨_, rfl⟩

/-- Compiled code in a frame: it is steady, so it keeps the frame's mark, the
arena's top and the layers around it. -/
theorem framed_compiled (a : Artifact) (sub : Subject) (h : Header) (fuel : Nat) :
    Framed fr (compiled fr a sub h fuel) := by
  intro m
  have hs := Artifact.steady_run a sub h fuel { frame := fr, parent := m.env, arena := m.mem.arena }
  obtain ⟨pass, hc⟩ := compiled_final a sub h fuel m
  exact ⟨_, _, hc, hs.mark, ⟨⟨rfl, hs.top, rfl⟩, .of_map hs.layers⟩⟩

/-- Only the mark of the frame matters to being framed by it. -/
theorem Framed.of_mark {fr' : Frame} {x : Run (α × Frame)} (hx : Framed fr' x) (hm : fr'.mark = fr.mark) :
    Framed fr x := by
  intro m
  obtain ⟨p, m', hxm, hmark, ht⟩ := hx m
  exact ⟨p, m', hxm, hmark.trans hm, ht⟩

/-- A frame of the same mark handed on is framed. -/
theorem Framed.pure {p : α × Frame} (hm : p.2.mark = fr.mark) : Framed fr (Pure.pure p : Run (α × Frame)) :=
  fun m => ⟨p, m, rfl, hm, refl_of _ m⟩

end Run

/-! ## The interpreter is tidy -/

/-- Every part of the interpreter run with `fuel` is tidy; the iterations of
a loop, which catch the errors of its body, also return. -/
structure Tidying (fuel : Nat) : Prop where
  block : ∀ ss, Keeps Machine.Tidy (execBlock fuel ss)
  stmt : ∀ s, Keeps Machine.Tidy (execStmt fuel s)
  loop : ∀ l, Keeps Machine.Tidy (runLoop fuel l)
  dispatch : ∀ l, Keeps Machine.Tidy (dispatchLoop fuel l)
  interpreted : ∀ s h, Keeps Machine.Tidy (runInterpreted fuel s h)
  compiled : ∀ p s art h, Keeps Machine.Tidy (runCompiled fuel p s art h)
  iterate : ∀ l h, KeepsOk Machine.Tidy (iterate fuel l h)
  iteration : ∀ l, KeepsOk Machine.Tidy (iteration fuel l)
  range : ∀ l v step cur trips n, KeepsOk Machine.Tidy (iterRange fuel l v step cur trips n)
  each : ∀ l v elems n, KeepsOk Machine.Tidy (iterEach fuel l v elems n)
  cond : ∀ l c n, KeepsOk Machine.Tidy (iterWhile fuel l c n)

/-- Out of fuel, every part stops at once. -/
theorem tidying_zero : Tidying 0 where
  block _ := by simp only [execBlock]; exact Keeps.throw _
  stmt _ := by simp only [execStmt]; exact Keeps.throw _
  loop _ := by simp only [runLoop]; exact Keeps.throw _
  dispatch _ := by simp only [dispatchLoop]; exact Keeps.throw _
  interpreted _ _ := by simp only [runInterpreted]; exact Keeps.pure _
  compiled _ _ _ _ := by simp only [runCompiled]; exact Keeps.pure _
  iterate _ _ := by simp only [iterate]; exact KeepsOk.pure _
  iteration _ := by simp only [iteration]; exact KeepsOk.pure _
  range _ _ _ _ _ _ := by simp only [iterRange]; exact KeepsOk.pure _
  each _ _ _ _ := by simp only [iterEach]; exact KeepsOk.pure _
  cond _ _ _ := by simp only [iterWhile]; exact KeepsOk.pure _

namespace Tidying

variable {f : Nat}

theorem block_succ (ih : Tidying f) (ss : List Stmt) : Keeps Machine.Tidy (execBlock (f + 1) ss) := by
  cases ss with
  | nil => simp only [execBlock]; exact Keeps.pure _
  | cons s rest =>
    simp only [execBlock]
    refine (ih.stmt s).bind fun sig => ?_
    split
    · exact ih.block rest
    · exact Keeps.pure _

theorem stmt_succ (ih : Tidying f) (s : Stmt) : Keeps Machine.Tidy (execStmt (f + 1) s) := by
  cases s with
  | declare p n v =>
    simp only [execStmt]
    exact (tidy_evalExpr v).bind fun x => (Run.tidy_declare n x).keeps.bind fun _ => Keeps.pure _
  | assign p n v =>
    simp only [execStmt]
    exact (tidy_evalExpr v).bind fun x => (Run.tidy_assign n x p).bind fun _ => Keeps.pure _
  | compound p n op v =>
    simp only [execStmt]
    refine (Run.tidy_lookup n).keeps.bind fun r => ?_
    split
    · exact (tidy_evalExpr v).bind fun rhs => (Run.tidy_located p _).bind fun nv =>
        (Run.tidy_assign n nv p).bind fun _ => Keeps.pure _
    · exact Keeps.throw _
  | step p n down =>
    simp only [execStmt]
    refine (Run.tidy_lookup n).keeps.bind fun r => ?_
    split
    · exact (Run.tidy_located p _).bind fun nv => (Run.tidy_assign n nv p).bind fun _ => Keeps.pure _
    · exact Keeps.throw _
  | cond p c t e =>
    simp only [execStmt]
    refine (tidy_evalExpr c).bind fun cv => ?_
    split
    · exact ih.block t
    · exact ih.block e
  | brk p => simp only [execStmt]; exact Keeps.pure _
  | cont p => simp only [execStmt]; exact Keeps.pure _
  | ret p v =>
    cases v with
    | none => simp only [execStmt]; exact Keeps.pure _
    | some v =>
      simp only [execStmt]
      exact (tidy_evalExpr v).bind fun _ => Keeps.pure _
  | eval p x =>
    simp only [execStmt]
    exact (tidy_evalExpr x).bind fun _ => Keeps.pure _
  | loop key p h b =>
    -- the interpreter runs a nested loop itself, or hands it to the dispatcher
    simp only [execStmt]
    refine Keeps.get fun m => ?_
    split
    · exact ih.loop _
    · exact ih.dispatch _

/-- A loop met by the interpreter runs its iterations in a scope of its own,
dropped afterwards. -/
theorem loop_succ (ih : Tidying f) (l : Loop) : Keeps Machine.Tidy (runLoop (f + 1) l) := by
  simp only [runLoop]
  refine (tidy_evalHeader l).bind fun h =>
    (Run.tidy_within _ (ih.iterate l h).keeps).bind fun pass => ?_
  split
  · exact Keeps.pure _
  · exact Keeps.throw _

/-- The dispatcher runs a loop compiled or interpreted; a compiled run that
fails is not retried. -/
theorem dispatch_succ (ih : Tidying f) (l : Loop) : Keeps Machine.Tidy (dispatchLoop (f + 1) l) := by
  simp only [dispatchLoop]
  refine (Run.tidy_dispatch _).keeps.bind fun x => (tidy_evalHeader l).bind fun h => ?_
  split
  refine (Run.tidy_dispatch _).keeps.bind fun r => ?_
  split
  refine (ih.compiled _ _ _ _).bind fun pass => ?_
  split
  exact Keeps.pure _
  refine (Keeps.throw _).bind fun _ => ?_
  -- what is left are the three paths that end with an interpreted run: after
  -- a failed compiled run (never reached), with no artifact, and for a site
  -- that is not compiled
  all_goals
    refine (ih.interpreted _ _).bind fun pass => ?_
    split
    · exact Keeps.throw _
    · exact (Run.tidy_dispatch _).keeps.bind fun _ => Keeps.pure _

/-- An interpreted run opens a frame, iterates in it and closes it. -/
theorem interpreted_succ (ih : Tidying f) (s : Site) (h : Header) :
    Keeps Machine.Tidy (runInterpreted (f + 1) s h) := by
  simp only [runInterpreted]
  refine Run.tidy_openFrame (fun e => ?_) fun fr => ?_
  · exact (Run.tidy_dispatch _).keeps.bind fun _ => Keeps.pure _
  · refine Run.Closes.bind (Run.framed_inFrame (ih.iterate _ _)) fun p hmark => ?_
    exact Run.closes_closeFrame hmark fun err => (Run.tidy_dispatch _).keeps.bind fun _ => Keeps.pure _

/-- A compiled run falls back to interpretation when it would nest too deep,
and otherwise runs its artifact in a frame that it closes; an artifact that
reports a defect leaves the loop to be interpreted in that frame. -/
theorem compiled_succ (ih : Tidying f) (p : Nat) (s : Site) (art : Artifact) (h : Header) :
    Keeps Machine.Tidy (runCompiled (f + 1) p s art h) := by
  simp only [runCompiled]
  refine Keeps.get fun m => ?_
  split
  · exact ih.interpreted s h
  · refine Run.tidy_openFrame (fun e => ?_) fun fr => ?_
    · exact (Run.tidy_dispatch _).keeps.bind fun _ => Keeps.pure _
    · refine Run.Closes.bind (Run.framed_compiled _ _ _ _) fun r hmark => ?_
      obtain ⟨pass, fr'⟩ := r
      have close : ∀ q : Pass × Frame, q.2.mark = fr.mark → Run.Closes fr (do
          let err ← Run.closeFrame q.2
          Run.dispatch (Dispatch.record s.id true q.1.count)
          pure { result := Run.settle q.1.result err, count := q.1.count } : Run Pass) :=
        fun q hq => Run.closes_closeFrame hq fun err => (Run.tidy_dispatch _).keeps.bind fun _ => Keeps.pure _
      split
      · exact .tidy_bind (Run.tidy_dispatch _) fun _ =>
          .bind ((Run.framed_inFrame (ih.iterate _ _)).of_mark hmark) close
      · exact .bind (.pure hmark) close

theorem iterate_succ (ih : Tidying f) (l : Loop) (h : Header) :
    KeepsOk Machine.Tidy (HotLoop.iterate (f + 1) l h) := by
  simp only [HotLoop.iterate]
  split
  · exact ih.range _ _ _ _ _ _
  · exact ih.each _ _ _ _
  · exact ih.cond _ _ _

/-- An iteration catches the error of the body: it returns. -/
theorem iteration_succ (ih : Tidying f) (l : Loop) :
    KeepsOk Machine.Tidy (HotLoop.iteration (f + 1) l) := by
  simp only [HotLoop.iteration]
  refine (Run.tidy_attempt (ih.block l.body)).bind fun r => ?_
  split <;> exact KeepsOk.pure _

theorem range_succ (ih : Tidying f) (l : Loop) (v : String) (step cur : Int64) (trips n : Nat) :
    KeepsOk Machine.Tidy (iterRange (f + 1) l v step cur trips n) := by
  cases trips with
  | zero => simp only [iterRange]; exact KeepsOk.pure _
  | succ t =>
    simp only [iterRange]
    refine (Run.tidy_declare v _).bind fun _ => (ih.iteration l).bind fun r => ?_
    cases r with
    | some r => exact KeepsOk.pure _
    | none => exact ih.range l v step _ t _

theorem each_succ (ih : Tidying f) (l : Loop) (v : String) (elems : List Value) (n : Nat) :
    KeepsOk Machine.Tidy (iterEach (f + 1) l v elems n) := by
  cases elems with
  | nil => simp only [iterEach]; exact KeepsOk.pure _
  | cons x rest =>
    simp only [iterEach]
    refine (Run.tidy_declare v _).bind fun _ => (ih.iteration l).bind fun r => ?_
    cases r with
    | some r => exact KeepsOk.pure _
    | none => exact ih.each l v rest _

/-- A conditional loop catches the error of its condition too. -/
theorem cond_succ (ih : Tidying f) (l : Loop) (c : Expr) (n : Nat) :
    KeepsOk Machine.Tidy (iterWhile (f + 1) l c n) := by
  simp only [iterWhile]
  refine (Run.tidy_attempt (tidy_evalExpr c)).bind fun r => ?_
  split
  · exact KeepsOk.pure _
  · split
    · exact KeepsOk.pure _
    · refine (ih.iteration l).bind fun r => ?_
      split
      · exact KeepsOk.pure _
      · exact ih.cond l c _

theorem succ (ih : Tidying f) : Tidying (f + 1) where
  block := ih.block_succ
  stmt := ih.stmt_succ
  loop := ih.loop_succ
  dispatch := ih.dispatch_succ
  interpreted := ih.interpreted_succ
  compiled := ih.compiled_succ
  iterate := ih.iterate_succ
  iteration := ih.iteration_succ
  range := ih.range_succ
  each := ih.each_succ
  cond := ih.cond_succ

end Tidying

/-- With any fuel, the interpreter is tidy. -/
theorem tidying : ∀ fuel, Tidying fuel
  | 0 => tidying_zero
  | f + 1 => (tidying f).succ

/-- Loop memory is balanced across every call into the interpreter: when a
block, a loop run by the interpreter, a loop handed to the dispatcher or a
whole program returns, with any outcome, the manager has as many frames open
and its arena the same top as before the call, every frame opened during the
call has been closed again, and (but for a program, which starts from its own
globals) no frame is left among the layers of the environment. -/
theorem loop_memory_balanced (fuel : Nat) (m : Machine) :
    (∀ ss, m.Tidy (finalState (execBlock fuel ss m))) ∧
    (∀ l, m.Tidy (finalState (runLoop fuel l m))) ∧
    (∀ l, m.Tidy (finalState (dispatchLoop fuel l m))) ∧
    ∀ prog globals, m.mem.Balanced (m.exec prog globals).2.mem := by
  refine ⟨fun ss => (tidying fuel).block ss m, fun l => (tidying fuel).loop l m,
    fun l => (tidying fuel).dispatch l m, fun prog globals => ?_⟩
  -- a program runs its block on the machine's own memory, from its own globals
  let m₀ : Machine := { m with env := [.scope globals], out := "",
                                dispatcher := m.dispatcher.map fun d => { d with log := #[] } }
  have h := ((tidying Machine.fuel).block prog m₀).mem
  simp only [Machine.exec, EStateM.run]
  split
  all_goals
    rename_i heq
    rw [heq] at h
    exact h

end HotLoop
