import Mathlib.Logic.Relation
import HotLoop.Eval.Program
import HotLoop.Proofs.Dispatch.Effects
import HotLoop.Proofs.Compile.CacheRuns
import HotLoop.Proofs.Compile.Defect
import HotLoop.Proofs.Memory.Frames
/-!
# HotLoop.Proofs.Dispatch.Steps

The interpreter touches its dispatcher only through five bookkeeping steps:
it meets a loop, acquires the artifact of a compiled site, gives up a
compiled site whose artifact reports a defect, settles a site after an
interpreted execution that ended well, and records an execution. Every
computation of the interpreter, whether it returns or fails, leaves the
dispatcher as some sequence of these steps leaves it (`bookkeeping`). An
invariant of the dispatcher is therefore proved once per step, and holds all
along every run.

The steps are taken in context: the interpreter acquires an artifact only
for the site it has just met, when that site is compiled, and gives a site
up only when the artifact it acquired was laid out for another number of
slots than the site's shape has: compiled code reports a defect for no other
reason (`Run.compiled_defect_iff`). The header it evaluates in between
leaves the dispatcher alone, which is why the combinators below are stated
for any relation between dispatchers: with the empty relation they say that
a computation keeps its dispatcher.

The proof follows the interpreter: each primitive keeps the dispatcher or is
one step, binds compose, and an induction on the fuel carries the mutual
block.
-/

namespace HotLoop

namespace Dispatch

/-- The bookkeeping steps the interpreter asks of its dispatcher. -/
inductive Step where
  | meet (l : Loop)
  | acquire (p : Nat)
  | fail (p : Nat) (e : Error)
  | afterRun (p : Nat)
  | record (id : String) (compiled : Bool) (iterations : Nat)

/-- The dispatcher after a step. -/
def Step.apply : Step → Dispatcher → Dispatcher
  | .meet l, d => ((Dispatch.meet l).run d).2
  | .acquire p, d => ((Dispatch.acquire p).run d).2
  | .fail p e, d => ((Dispatch.fail p e).run d).2
  | .afterRun p, d => ((Dispatch.afterRun p).run d).2
  | .record id c n, d => ((Dispatch.record id c n).run d).2

end Dispatch

/-- Whether the interpreter takes a step in a dispatcher: it acquires only
the artifact of a compiled site, and gives a compiled site up only when the
cache holds, under the site's fingerprint, an artifact laid out for another
number of slots than the site's shape has. -/
def Dispatch.Step.Allowed : Dispatch.Step → Dispatcher → Prop
  | .acquire p, d => ∃ s, d.heap[p]? = some s ∧ s.state = .compiled
  | .fail p _, d => ∃ s a, d.heap[p]? = some s ∧ s.state = .compiled ∧ d.cache.Holds s.fingerprint a ∧
      a.layout.length ≠ s.shape.numSlots
  | _, _ => True

/-- What acquiring artifact `a` for site `s`, number `p`, leaves: the site
compiled, and `a` cached under its fingerprint. -/
def Dispatcher.Acquired (p : Nat) (s : Site) (a : Artifact) (d : Dispatcher) : Prop :=
  d.heap[p]? = some { s with state := .compiled } ∧ d.cache.Holds s.fingerprint a

/-- Acquiring a site's artifact leaves what `Acquired` says. -/
theorem Dispatch.acquire_acquired {d : Dispatcher} {p : Nat} {s : Site} {a : Artifact}
    (hs : d.heap[p]? = some s) (ha : ((Dispatch.acquire p).run d).1 = some a) :
    ((Dispatch.acquire p).run d).2.Acquired p s a := by
  cases hl : d.cache.lookup s.fingerprint with
  | mk r c =>
    cases r with
    | some a' =>
      -- a hit: the lookup keeps the item it finds
      rw [Dispatch.acquire_hit hs hl] at ha ⊢
      obtain rfl := Option.some.inj ha
      refine ⟨by simp [Dispatcher.heap_move, hs], ?_⟩
      have hheld := Cache.holds_lookup (show (d.cache.lookup s.fingerprint).1 = some a' by rw [hl])
      rw [hl] at hheld
      simpa using hheld
    | none =>
      cases hb : s.build with
      | ok a₀ =>
        -- a miss that builds: the artifact is inserted
        rw [Dispatch.acquire_ok hs hl hb] at ha ⊢
        obtain rfl := Option.some.inj ha
        exact ⟨by simp [Dispatcher.heap_move, hs], by simpa using Cache.holds_insert c s.fingerprint _⟩
      | error e =>
        rw [Dispatch.acquire_fail hs hl hb] at ha
        cases ha

/-- `d'` is what one step the interpreter may take makes of `d`. -/
def Dispatcher.Next (d d' : Dispatcher) : Prop :=
  ∃ st : Dispatch.Step, st.Allowed d ∧ st.apply d = d'

/-- `d'` is what some sequence of steps makes of `d`. -/
def Dispatcher.Reaches : Dispatcher → Dispatcher → Prop := Relation.ReflTransGen Dispatcher.Next

/-- One step reaches what it makes of the dispatcher. -/
theorem Dispatcher.Reaches.step (st : Dispatch.Step) {d : Dispatcher} (h : st.Allowed d) :
    d.Reaches (st.apply d) :=
  Relation.ReflTransGen.single ⟨st, h, rfl⟩

/-- The dispatcher of `m'` is reached from that of `m` by `r`-steps, or
neither machine has one. -/
def Machine.Along (r : Dispatcher → Dispatcher → Prop) (m m' : Machine) : Prop :=
  (m.dispatcher = none ∧ m'.dispatcher = none) ∨
    ∃ d d', m.dispatcher = some d ∧ m'.dispatcher = some d' ∧ Relation.ReflTransGen r d d'

namespace Machine.Along

variable {r : Dispatcher → Dispatcher → Prop} {m m₁ m₂ : Machine}

/-- A machine whose dispatcher is left alone is reached. -/
theorem of_dispatcher (h : m₁.dispatcher = m.dispatcher) : Along r m m₁ := by
  cases hd : m.dispatcher with
  | none => exact .inl ⟨hd, h.trans hd⟩
  | some d => exact .inr ⟨d, d, hd, h.trans hd, Relation.ReflTransGen.refl⟩

theorem refl (m : Machine) : Along r m m := of_dispatcher rfl

theorem trans (h₁ : Along r m m₁) (h₂ : Along r m₁ m₂) : Along r m m₂ := by
  rcases h₁ with ⟨h, h'⟩ | ⟨d, d₁, h, h', hr⟩
  · rcases h₂ with ⟨-, h''⟩ | ⟨d₁', -, h₁', -, -⟩
    · exact .inl ⟨h, h''⟩
    · rw [h'] at h₁'
      cases h₁'
  · rcases h₂ with ⟨h₁', -⟩ | ⟨d₁', d₂, h₁', h₂', hr'⟩
    · rw [h'] at h₁'
      cases h₁'
    · rw [h'] at h₁'
      cases h₁'
      exact .inr ⟨d, d₂, h, h₂', hr.trans hr'⟩

/-- With no steps to take, the dispatcher stays as it is. -/
theorem dispatcher_eq (h : Along (fun _ _ => False) m m₁) : m₁.dispatcher = m.dispatcher := by
  rcases h with ⟨h, h'⟩ | ⟨d, d', h, h', hr⟩
  · rw [h, h']
  · cases hr with
    | refl => rw [h, h']
    | tail _ hs => exact hs.elim

end Machine.Along

/-- The dispatcher of `m'` is what bookkeeping steps make of that of `m`,
or neither machine has one. -/
def Machine.Reaches (m m' : Machine) : Prop := Machine.Along Dispatcher.Next m m'

namespace Run

/-- The machine a computation ends on, whether it returned or failed. -/
def final {α : Type} : EStateM.Result Error Machine α → Machine
  | .ok _ m => m
  | .error _ m => m

/-- A computation is *bookkept* along `r` when whatever it ends with, it has
changed the dispatcher only by `r`-steps. -/
def Bookkept {α : Type} (r : Dispatcher → Dispatcher → Prop) (x : Run α) : Prop :=
  ∀ m : Machine, Machine.Along r m (final (x m))

/-- Bookkept along `r` when started on a dispatcher satisfying `P`. -/
def BookkeptAt {α : Type} (r : Dispatcher → Dispatcher → Prop) (P : Dispatcher → Prop) (x : Run α) :
    Prop :=
  ∀ m : Machine, (∀ d, m.dispatcher = some d → P d) → Machine.Along r m (final (x m))

section Combinators

variable {α β : Type} {r : Dispatcher → Dispatcher → Prop}

/-- A computation that never changes the dispatcher is bookkept. -/
theorem Bookkept.of_dispatcher {x : Run α} (h : ∀ m, (final (x m)).dispatcher = m.dispatcher) :
    Bookkept r x := fun m => Machine.Along.of_dispatcher (h m)

theorem Bookkept.pure (a : α) : Bookkept r (pure a : Run α) :=
  Bookkept.of_dispatcher fun _ => rfl

theorem Bookkept.throw (e : Error) : Bookkept r (throw e : Run α) :=
  Bookkept.of_dispatcher fun _ => rfl

theorem Bookkept.bind {x : Run α} {f : α → Run β} (hx : Bookkept r x) (hf : ∀ a, Bookkept r (f a)) :
    Bookkept r (x >>= f) := by
  intro m
  have hxm := hx m
  show Machine.Along r m (final (EStateM.bind x f m))
  unfold EStateM.bind
  generalize x m = r at hxm ⊢
  cases r with
  | ok a m₁ => exact hxm.trans (hf a m₁)
  | error e m₁ => exact hxm

/-- Reading the machine, then going on as it says, is bookkept when every
way of going on is. -/
theorem Bookkept.get_bind {g : Machine → Run α} (hg : ∀ m, Bookkept r (g m)) :
    Bookkept r (get >>= g) := fun m => hg m m

theorem Bookkept.lookup (n : String) : Bookkept r (Run.lookup n) :=
  Bookkept.of_dispatcher fun _ => rfl

theorem Bookkept.declare (n : String) (v : Value) : Bookkept r (Run.declare n v) :=
  Bookkept.of_dispatcher fun _ => rfl

theorem Bookkept.assign (n : String) (v : Value) (p : Pos) : Bookkept r (Run.assign n v p) := by
  refine Bookkept.of_dispatcher fun m => ?_
  simp only [Run.assign]
  split <;> rfl

theorem Bookkept.emit (t : String) : Bookkept r (Run.emit t) :=
  Bookkept.of_dispatcher fun _ => rfl

theorem Bookkept.located (p : Pos) (res : Except Error Value) : Bookkept r (Run.located p res) := by
  cases res with
  | ok v => exact Bookkept.pure v
  | error e => exact Bookkept.throw _

theorem Bookkept.within {x : Run α} (layer : Layer) (hx : Bookkept r x) :
    Bookkept r (Run.within layer x) := by
  intro m
  have hxm := hx { m with env := layer :: m.env }
  simp only [Run.within]
  generalize x { m with env := layer :: m.env } = r at hxm ⊢
  cases r with
  | ok a m₁ => exact hxm.trans (Machine.Along.of_dispatcher rfl)
  | error e m₁ => exact hxm.trans (Machine.Along.of_dispatcher rfl)

theorem Bookkept.attempt {x : Run α} (hx : Bookkept r x) : Bookkept r (Run.attempt x) := by
  intro m
  have hxm := hx m
  simp only [Run.attempt]
  generalize x m = r at hxm ⊢
  cases r with
  | ok a m₁ => exact hxm
  | error e m₁ => exact hxm

theorem Bookkept.openFrame (l : Loop) (shape : Shape) : Bookkept r (Run.openFrame l shape) := by
  refine Bookkept.of_dispatcher fun m => ?_
  simp only [Run.openFrame]
  split <;> rfl

/-- A frame opened for a shape has the shape's number of slots. -/
theorem numSlots_openFrame {l : Loop} {sh : Shape} {m m' : Machine} {fr : Frame}
    (h : Run.openFrame l sh m = .ok (.ok fr) m') : fr.numSlots = sh.numSlots := by
  unfold Run.openFrame at h
  split at h
  · rename_i fr' mem henter
    cases h
    exact Manager.numSlots_enter henter
  · cases h

theorem Bookkept.closeFrame (fr : Frame) : Bookkept r (Run.closeFrame fr) :=
  Bookkept.of_dispatcher fun _ => rfl

theorem Bookkept.inFrame {x : Run α} (fr : Frame) (hx : Bookkept r x) :
    Bookkept r (Run.inFrame fr x) := by
  intro m
  have hxm := hx { m with env := .frame fr :: m.env }
  simp only [Run.inFrame]
  generalize x { m with env := .frame fr :: m.env } = r at hxm ⊢
  cases r with
  | ok a m₁ =>
    simp only
    split
    · exact hxm.trans (Machine.Along.of_dispatcher rfl)
    · exact hxm
  | error e m₁ => exact hxm.trans (Machine.Along.of_dispatcher rfl)

/-- Compiled code runs against the frame and the environment only. -/
theorem Bookkept.compiled (fr : Frame) (a : Artifact) (sub : Subject) (h : Header) (fuel : Nat) :
    Bookkept r (Run.compiled fr a sub h fuel) :=
  Bookkept.of_dispatcher fun _ => rfl

/-- A bookkeeping action is bookkept when what it makes of any dispatcher is
reached by steps. -/
theorem Bookkept.dispatch [Inhabited α] {act : Dispatch α}
    (h : ∀ d : Dispatcher, Relation.ReflTransGen r d (act.run d).2) : Bookkept r (Run.dispatch act) := by
  intro m
  cases hd : m.dispatcher with
  | none => exact .inl ⟨hd, by simp only [Run.dispatch, hd, final]⟩
  | some d =>
    refine .inr ⟨d, (act.run d).2, hd, ?_, h d⟩
    simp only [Run.dispatch, hd]
    rfl

theorem Bookkept.at {x : Run α} (P : Dispatcher → Prop) (hx : Bookkept r x) : BookkeptAt r P x :=
  fun m _ => hx m

/-- A bookkeeping action needs only reach its results from the dispatchers
it is started on. -/
theorem BookkeptAt.dispatch [Inhabited α] {act : Dispatch α} {P : Dispatcher → Prop}
    (h : ∀ d, P d → Relation.ReflTransGen r d (act.run d).2) : BookkeptAt r P (Run.dispatch act) := by
  intro m hm
  cases hd : m.dispatcher with
  | none => exact .inl ⟨hd, by simp only [Run.dispatch, hd, final]⟩
  | some d =>
    refine .inr ⟨d, (act.run d).2, hd, ?_, h d (hm d hd)⟩
    simp only [Run.dispatch, hd]
    rfl

theorem BookkeptAt.bind {P : Dispatcher → Prop} {x : Run α} {f : α → Run β} (hx : BookkeptAt r P x)
    (hf : ∀ a, Bookkept r (f a)) : BookkeptAt r P (x >>= f) := by
  intro m hm
  have hxm := hx m hm
  show Machine.Along r m (final (EStateM.bind x f m))
  unfold EStateM.bind
  generalize x m = res at hxm ⊢
  cases res with
  | ok a m₁ => exact hxm.trans (hf a m₁)
  | error e m₁ => exact hxm

/-- A computation that keeps the dispatcher keeps what is known of it. -/
theorem BookkeptAt.bind_keep {P : Dispatcher → Prop} {x : Run α} {f : α → Run β}
    (hx : Bookkept (fun _ _ => False) x) (hf : ∀ a, BookkeptAt r P (f a)) : BookkeptAt r P (x >>= f) := by
  intro m hm
  have hkeep := (hx m).dispatcher_eq
  show Machine.Along r m (final (EStateM.bind x f m))
  unfold EStateM.bind
  generalize x m = res at hkeep ⊢
  cases res with
  | ok a m₁ =>
    refine (Machine.Along.of_dispatcher hkeep).trans (hf a m₁ fun d hd => hm d ?_)
    rw [← hd]
    exact hkeep.symm
  | error e m₁ => exact Machine.Along.of_dispatcher hkeep

/-- What is known of the dispatcher may be weakened. -/
theorem BookkeptAt.mono {P P' : Dispatcher → Prop} {x : Run α} (hx : BookkeptAt r P x)
    (hP : ∀ d, P' d → P d) : BookkeptAt r P' x :=
  fun m hm => hx m fun d hd => hP d (hm d hd)

theorem BookkeptAt.get_bind {P : Dispatcher → Prop} {g : Machine → Run α}
    (hg : ∀ m, BookkeptAt r P (g m)) : BookkeptAt r P (get >>= g) := fun m hm => hg m m hm

/-- A computation that keeps the dispatcher, then one that may rely on what
the first returned. -/
theorem BookkeptAt.bind_keep_ok {P : Dispatcher → Prop} {x : Run α} {f : α → Run β}
    (hx : Bookkept (fun _ _ => False) x) (hf : ∀ m a m', x m = .ok a m' → BookkeptAt r P (f a)) :
    BookkeptAt r P (x >>= f) := by
  intro m hm
  have hkeep := (hx m).dispatcher_eq
  show Machine.Along r m (final (EStateM.bind x f m))
  unfold EStateM.bind
  cases hxm : x m with
  | ok a m₁ =>
    rw [hxm] at hkeep
    refine (Machine.Along.of_dispatcher hkeep).trans (hf m a m₁ hxm m₁ fun d hd => hm d ?_)
    rw [← hd]
    exact hkeep.symm
  | error e m₁ =>
    rw [hxm] at hkeep
    exact Machine.Along.of_dispatcher hkeep

/-- A bookkeeping action started on a dispatcher satisfying `P`, then a
computation that relies on what the action returned holding of the
dispatcher it left. -/
theorem BookkeptAt.dispatch_bind [Inhabited α] {P : Dispatcher → Prop} {act : Dispatch α}
    {f : α → Run β} (Q : α → Dispatcher → Prop)
    (hact : ∀ d, P d → Relation.ReflTransGen r d (act.run d).2)
    (hQ : ∀ d, P d → Q (act.run d).1 (act.run d).2) (hf : ∀ a, BookkeptAt r (Q a) (f a)) :
    BookkeptAt r P (Run.dispatch act >>= f) := by
  intro m hm
  show Machine.Along r m (final (EStateM.bind (Run.dispatch act) f m))
  cases hd : m.dispatcher with
  | none =>
    have hrun : Run.dispatch act m = .ok default m := by simp only [Run.dispatch, hd]
    simp only [EStateM.bind, hrun]
    exact hf default m fun d h => absurd (hd.symm.trans h) (by simp)
  | some d =>
    have hrun : Run.dispatch act m = .ok (act.run d).1 { m with dispatcher := some (act.run d).2 } := by
      simp only [Run.dispatch, hd]
      rfl
    simp only [EStateM.bind, hrun]
    have hstep : Machine.Along r m { m with dispatcher := some (act.run d).2 } :=
      .inr ⟨d, (act.run d).2, hd, rfl, hact d (hm d hd)⟩
    refine Machine.Along.trans hstep (hf _ _ fun d' h => ?_)
    cases h
    exact hQ d (hm d hd)

/-- A bookkeeping action, then a computation that relies on what the action
returned holding of the dispatcher it left. -/
theorem Bookkept.dispatch_bind [Inhabited α] {act : Dispatch α} {f : α → Run β}
    (Q : α → Dispatcher → Prop) (hact : ∀ d, Relation.ReflTransGen r d (act.run d).2)
    (hQ : ∀ d, Q (act.run d).1 (act.run d).2) (hf : ∀ a, BookkeptAt r (Q a) (f a)) :
    Bookkept r (Run.dispatch act >>= f) := fun m =>
  (BookkeptAt.dispatch_bind Q (fun d _ => hact d) (fun d _ => hQ d) hf : BookkeptAt r (fun _ => True) _) m
    fun _ _ => trivial

end Combinators

/-! ## Expressions -/

section Expressions

variable (r : Dispatcher → Dispatcher → Prop)

mutual
/-- Evaluating an expression never touches the dispatcher. -/
theorem bookkept_evalExpr : (e : Expr) → Bookkept r (evalExpr e)
  | .int _ n => by simp only [evalExpr]; exact Bookkept.pure _
  | .float _ x => by simp only [evalExpr]; exact Bookkept.pure _
  | .bool _ b => by simp only [evalExpr]; exact Bookkept.pure _
  | .array _ es => by
    simp only [evalExpr]
    exact (bookkept_evalExprs es).bind fun vs => Bookkept.pure _
  | .ident p n => by
    simp only [evalExpr]
    refine (Bookkept.lookup n).bind fun r => ?_
    cases r with
    | some v => exact Bookkept.pure v
    | none => exact Bookkept.throw _
  | .binary p op x y => by
    simp only [evalExpr]
    refine (bookkept_evalExpr x).bind fun a => ?_
    split
    · exact Bookkept.pure _
    split
    · exact Bookkept.pure _
    exact (bookkept_evalExpr y).bind fun b => Bookkept.located p _
  | .unary p op x => by
    simp only [evalExpr]
    exact (bookkept_evalExpr x).bind fun a => Bookkept.located p _
  | .index p x i => by
    simp only [evalExpr]
    exact (bookkept_evalExpr x).bind fun a =>
      (bookkept_evalExpr i).bind fun j => Bookkept.located p _
  | .call p f args => by
    simp only [evalExpr]
    cases Builtin.ofName? f with
    | none => exact Bookkept.throw _
    | some b =>
      refine (bookkept_evalExprs args).bind fun vs => ?_
      cases b.apply vs with
      | ok r => exact (Bookkept.emit r.2).bind fun _ => Bookkept.pure _
      | error e => exact Bookkept.throw _

/-- Evaluating a list of expressions never touches the dispatcher. -/
theorem bookkept_evalExprs : (es : List Expr) → Bookkept r (evalExprs es)
  | [] => by simp only [evalExprs]; exact Bookkept.pure _
  | e :: es => by
    simp only [evalExprs]
    exact (bookkept_evalExpr e).bind fun v =>
      (bookkept_evalExprs es).bind fun vs => Bookkept.pure _
end

theorem bookkept_evalBound (e : Expr) : Bookkept r (evalBound e) := by
  unfold evalBound
  refine (bookkept_evalExpr r e).bind fun v => ?_
  split
  · exact Bookkept.pure _
  · exact Bookkept.throw _

theorem bookkept_evalHeader (l : Loop) : Bookkept r (evalHeader l) := by
  unfold evalHeader
  split
  · refine (bookkept_evalBound r _).bind fun start => (bookkept_evalBound r _).bind fun stop => ?_
    split
    · exact Bookkept.pure _
    · refine (bookkept_evalBound r _).bind fun step => ?_
      split
      · exact Bookkept.pure _
      · exact Bookkept.throw _
  · refine (bookkept_evalExpr r _).bind fun v => ?_
    split
    · exact Bookkept.pure _
    · exact Bookkept.throw _
  · exact Bookkept.pure _

end Expressions

/-! ## The interpreter -/

/-- Every part of the interpreter run with `fuel` is bookkept. -/
structure Bookkeeping (fuel : Nat) : Prop where
  block : ∀ ss, Bookkept Dispatcher.Next (execBlock fuel ss)
  stmt : ∀ s, Bookkept Dispatcher.Next (execStmt fuel s)
  loop : ∀ l, Bookkept Dispatcher.Next (runLoop fuel l)
  dispatch : ∀ l, Bookkept Dispatcher.Next (dispatchLoop fuel l)
  interpreted : ∀ s h, Bookkept Dispatcher.Next (runInterpreted fuel s h)
  /-- A compiled run is bookkept from what acquiring its artifact left. -/
  compiled : ∀ p s art h, BookkeptAt Dispatcher.Next (Dispatcher.Acquired p s art) (runCompiled fuel p s art h)
  iterate : ∀ l h, Bookkept Dispatcher.Next (iterate fuel l h)
  iteration : ∀ l, Bookkept Dispatcher.Next (iteration fuel l)
  range : ∀ l v step cur trips n, Bookkept Dispatcher.Next (iterRange fuel l v step cur trips n)
  each : ∀ l v elems n, Bookkept Dispatcher.Next (iterEach fuel l v elems n)
  cond : ∀ l c n, Bookkept Dispatcher.Next (iterWhile fuel l c n)

/-- Out of fuel, every part stops before it touches anything. -/
theorem bookkeeping_zero : Bookkeeping 0 where
  block _ := by simp only [execBlock]; exact Bookkept.throw _
  stmt _ := by simp only [execStmt]; exact Bookkept.throw _
  loop _ := by simp only [runLoop]; exact Bookkept.throw _
  dispatch _ := by simp only [dispatchLoop]; exact Bookkept.throw _
  interpreted _ _ := by simp only [runInterpreted]; exact Bookkept.pure _
  compiled _ _ _ _ := by simp only [runCompiled]; exact Bookkept.at _ (Bookkept.pure _)
  iterate _ _ := by simp only [HotLoop.iterate]; exact Bookkept.pure _
  iteration _ := by simp only [HotLoop.iteration]; exact Bookkept.pure _
  range _ _ _ _ _ _ := by simp only [iterRange]; exact Bookkept.pure _
  each _ _ _ _ := by simp only [iterEach]; exact Bookkept.pure _
  cond _ _ _ := by simp only [iterWhile]; exact Bookkept.pure _

namespace Bookkeeping

variable {f : Nat}

theorem block_succ (ih : Bookkeeping f) (ss : List Stmt) : Bookkept Dispatcher.Next (execBlock (f + 1) ss) := by
  cases ss with
  | nil => simp only [execBlock]; exact Bookkept.pure _
  | cons s rest =>
    simp only [execBlock]
    refine (ih.stmt s).bind fun sig => ?_
    split
    · exact ih.block rest
    · exact Bookkept.pure _

/-- One statement: only a loop reaches the dispatcher. -/
theorem stmt_succ (ih : Bookkeeping f) (s : Stmt) : Bookkept Dispatcher.Next (execStmt (f + 1) s) := by
  cases s with
  | declare p n v =>
    simp only [execStmt]
    exact (bookkept_evalExpr _ v).bind fun x => (Bookkept.declare n x).bind fun _ => Bookkept.pure _
  | assign p n v =>
    simp only [execStmt]
    exact (bookkept_evalExpr _ v).bind fun x => (Bookkept.assign n x p).bind fun _ => Bookkept.pure _
  | compound p n op v =>
    simp only [execStmt]
    refine (Bookkept.lookup n).bind fun r => ?_
    split
    · exact (bookkept_evalExpr _ v).bind fun rhs => (Bookkept.located p _).bind fun nv =>
        (Bookkept.assign n nv p).bind fun _ => Bookkept.pure _
    · exact Bookkept.throw _
  | step p n down =>
    simp only [execStmt]
    refine (Bookkept.lookup n).bind fun r => ?_
    split
    · exact (Bookkept.located p _).bind fun nv => (Bookkept.assign n nv p).bind fun _ => Bookkept.pure _
    · exact Bookkept.throw _
  | cond p c t e =>
    simp only [execStmt]
    refine (bookkept_evalExpr _ c).bind fun cv => ?_
    split
    · exact ih.block t
    · exact ih.block e
  | brk p => simp only [execStmt]; exact Bookkept.pure _
  | cont p => simp only [execStmt]; exact Bookkept.pure _
  | ret p v =>
    cases v with
    | none => simp only [execStmt]; exact Bookkept.pure _
    | some v =>
      simp only [execStmt]
      exact (bookkept_evalExpr _ v).bind fun x => Bookkept.pure _
  | eval p x =>
    simp only [execStmt]
    exact (bookkept_evalExpr _ x).bind fun _ => Bookkept.pure _
  | loop key p h b =>
    simp only [execStmt]
    refine Bookkept.get_bind fun m => ?_
    split
    · exact ih.loop _
    · exact ih.dispatch _

theorem loop_succ (ih : Bookkeeping f) (l : Loop) : Bookkept Dispatcher.Next (runLoop (f + 1) l) := by
  simp only [runLoop]
  refine (bookkept_evalHeader _ l).bind fun h =>
    (Bookkept.within _ (ih.iterate l h)).bind fun pass => ?_
  split
  · exact Bookkept.pure _
  · exact Bookkept.throw _

/-- A loop through the dispatcher: a meeting, perhaps an acquisition, the
execution, and after an interpreted one that ended well, the settling. -/
theorem dispatch_succ (ih : Bookkeeping f) (l : Loop) :
    Bookkept Dispatcher.Next (dispatchLoop (f + 1) l) := by
  simp only [dispatchLoop]
  -- the site met is the one acquired, so it is known to be compiled then
  refine Bookkept.dispatch_bind (fun ps d => d.heap[ps.1]? = some ps.2)
    (fun d => Dispatcher.Reaches.step (.meet l) (d := d) trivial) (Dispatch.meet_site l) fun ps => ?_
  refine BookkeptAt.bind_keep (bookkept_evalHeader _ l) fun h => ?_
  -- the settling after an interpreted execution that ended well
  have settle : ∀ sig : Signal,
      Bookkept Dispatcher.Next (do Run.dispatch (Dispatch.afterRun ps.1); return sig : Run Signal) :=
    fun _ => (Bookkept.dispatch fun d => Dispatcher.Reaches.step (.afterRun ps.1) (d := d) trivial).bind
      fun _ => Bookkept.pure _
  split
  · rename_i hc
    -- the artifact acquired is cached, and its site compiled
    refine BookkeptAt.dispatch_bind (fun r d => ∀ a, r = some a → d.Acquired ps.1 ps.2 a)
      (fun d hd => Dispatcher.Reaches.step (.acquire ps.1) (d := d) ⟨ps.2, hd, hc⟩)
      (fun d hd a ha => Dispatch.acquire_acquired hd ha) fun r => ?_
    split
    · rename_i art
      refine ((ih.compiled ps.1 ps.2 art h).mono fun d hd => hd art rfl).bind fun pass => ?_
      split
      · exact Bookkept.pure _
      · exact Bookkept.throw _
    · refine Bookkept.at _ ((ih.interpreted ps.2 h).bind fun pass => ?_)
      split
      · exact Bookkept.throw _
      · exact settle _
  · refine Bookkept.at _ ((ih.interpreted ps.2 h).bind fun pass => ?_)
    split
    · exact Bookkept.throw _
    · exact settle _

theorem interpreted_succ (ih : Bookkeeping f) (s : Site) (h : Header) :
    Bookkept Dispatcher.Next (runInterpreted (f + 1) s h) := by
  simp only [runInterpreted]
  refine (Bookkept.openFrame s.loop s.shape).bind fun r => ?_
  split
  · exact (Bookkept.dispatch fun d => Dispatcher.Reaches.step (.record s.id false 0) (d := d) trivial).bind
      fun _ => Bookkept.pure _
  · refine (Bookkept.inFrame _ (ih.iterate s.loop h)).bind fun pf =>
      (Bookkept.closeFrame _).bind fun err => ?_
    exact (Bookkept.dispatch fun d => Dispatcher.Reaches.step (.record s.id false _) (d := d) trivial).bind
      fun _ => Bookkept.pure _

/-- A compiled run: the artifact runs in a frame of the site's shape, and
an artifact that reports a defect, being laid out for another number of
slots, has its site given up before the loop is interpreted in that
frame. -/
theorem compiled_succ (ih : Bookkeeping f) (p : Nat) (s : Site) (art : Artifact) (h : Header) :
    BookkeptAt Dispatcher.Next (Dispatcher.Acquired p s art) (runCompiled (f + 1) p s art h) := by
  simp only [runCompiled]
  refine BookkeptAt.get_bind fun m => ?_
  split
  · exact Bookkept.at _ (ih.interpreted s h)
  · refine BookkeptAt.bind_keep_ok (Bookkept.openFrame s.loop s.shape) fun _ r _ hopen => ?_
    split
    · exact Bookkept.at _ ((Bookkept.dispatch fun d =>
        Dispatcher.Reaches.step (.record s.id true 0) (d := d) trivial).bind fun _ => Bookkept.pure _)
    · rename_i fr
      have hslots : fr.numSlots = s.shape.numSlots := Run.numSlots_openFrame hopen
      refine BookkeptAt.bind_keep_ok (Bookkept.compiled fr art _ h f) fun _ pf _ hrun => ?_
      obtain ⟨pass, fr'⟩ := pf
      have close : ∀ q : Pass × Frame, Bookkept Dispatcher.Next (do
          let err ← Run.closeFrame q.2
          Run.dispatch (Dispatch.record s.id true q.1.count)
          pure { result := Run.settle q.1.result err, count := q.1.count } : Run Pass) :=
        fun q => (Bookkept.closeFrame _).bind fun err => (Bookkept.dispatch fun d =>
          Dispatcher.Reaches.step (.record s.id true _) (d := d) trivial).bind fun _ => Bookkept.pure _
      split
      · rename_i e hdefect
        -- a defect means that the frame, of the site's shape, misfits the layout
        have hmisfit : art.layout.length ≠ s.shape.numSlots := fun hfit => by
          rw [(Run.compiled_defect_iff hrun).2 (hslots.trans hfit.symm)] at hdefect
          cases hdefect
        refine (BookkeptAt.dispatch fun d hd => Dispatcher.Reaches.step (.fail p e) (d := d)
          ⟨{ s with state := .compiled }, art, hd.1, rfl, hd.2, hmisfit⟩).bind fun _ => ?_
        exact (Bookkept.inFrame _ (ih.iterate s.loop h)).bind close
      · exact Bookkept.at _ ((Bookkept.pure _).bind close)

theorem iterate_succ (ih : Bookkeeping f) (l : Loop) (h : Header) :
    Bookkept Dispatcher.Next (HotLoop.iterate (f + 1) l h) := by
  simp only [HotLoop.iterate]
  split
  · exact ih.range _ _ _ _ _ _
  · exact ih.each _ _ _ _
  · exact ih.cond _ _ _

theorem iteration_succ (ih : Bookkeeping f) (l : Loop) : Bookkept Dispatcher.Next (HotLoop.iteration (f + 1) l) := by
  simp only [HotLoop.iteration]
  refine (Bookkept.attempt (ih.block l.body)).bind fun r => ?_
  split <;> exact Bookkept.pure _

theorem range_succ (ih : Bookkeeping f) (l : Loop) (v : String) (step cur : Int64) (trips n : Nat) :
    Bookkept Dispatcher.Next (iterRange (f + 1) l v step cur trips n) := by
  cases trips with
  | zero => simp only [iterRange]; exact Bookkept.pure _
  | succ t =>
    simp only [iterRange]
    refine (Bookkept.declare v _).bind fun _ => (ih.iteration l).bind fun r => ?_
    cases r with
    | some r => exact Bookkept.pure _
    | none => exact ih.range l v step _ t _

theorem each_succ (ih : Bookkeeping f) (l : Loop) (v : String) (elems : List Value) (n : Nat) :
    Bookkept Dispatcher.Next (iterEach (f + 1) l v elems n) := by
  cases elems with
  | nil => simp only [iterEach]; exact Bookkept.pure _
  | cons x rest =>
    simp only [iterEach]
    refine (Bookkept.declare v _).bind fun _ => (ih.iteration l).bind fun r => ?_
    cases r with
    | some r => exact Bookkept.pure _
    | none => exact ih.each l v rest _

theorem cond_succ (ih : Bookkeeping f) (l : Loop) (c : Expr) (n : Nat) :
    Bookkept Dispatcher.Next (iterWhile (f + 1) l c n) := by
  simp only [iterWhile]
  refine (Bookkept.attempt (bookkept_evalExpr _ c)).bind fun r => ?_
  split
  · exact Bookkept.pure _
  · split
    · exact Bookkept.pure _
    · refine (ih.iteration l).bind fun r => ?_
      split
      · exact Bookkept.pure _
      · exact ih.cond l c _

theorem succ (ih : Bookkeeping f) : Bookkeeping (f + 1) where
  block := ih.block_succ
  stmt := ih.stmt_succ
  loop := ih.loop_succ
  dispatch := ih.dispatch_succ
  interpreted := ih.interpreted_succ
  compiled := ih.compiled_succ
  iterate := ih.iterate_succ
  iteration := ih.iteration_succ
  range := ih.range_succ
  each := ih.each_succ
  cond := ih.cond_succ

end Bookkeeping

/-- With any fuel, every part of the interpreter is bookkept. -/
theorem bookkeeping : ∀ fuel, Bookkeeping fuel
  | 0 => bookkeeping_zero
  | f + 1 => (bookkeeping f).succ

end Run

/-- A run of a program leaves its dispatcher as bookkeeping steps leave it,
with the transition log cleared at the start. -/
theorem Machine.exec_reaches (m : Machine) (prog : List Stmt) (globals : Bindings) :
    Machine.Reaches { m with dispatcher := m.dispatcher.map fun d => { d with log := #[] } }
      (m.exec prog globals).2 := by
  let m₀ : Machine := { m with env := [.scope globals], out := "",
                                dispatcher := m.dispatcher.map fun d => { d with log := #[] } }
  have h := (Run.bookkeeping Machine.fuel).block prog m₀
  have hstart : Machine.Reaches { m with dispatcher := m₀.dispatcher } m₀ :=
    Machine.Along.of_dispatcher rfl
  simp only [Machine.exec, EStateM.run]
  split
  all_goals
    rename_i heq
    rw [heq] at h
    exact hstart.trans h

end HotLoop
