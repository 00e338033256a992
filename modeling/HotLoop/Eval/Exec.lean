import HotLoop.Eval.Builtin
import HotLoop.Eval.Pass
import HotLoop.Dispatch.Core
/-!
# HotLoop.Eval.Exec

The interpreter: expressions, statements and loops run against a machine
that holds the environment, the printed text and the frame manager.

* Errors raised by an operator, a variable or a call are *located* at the
  node that raised them (a runtime error with the node's position); an
  error that already has a position keeps it.
* A statement yields a signal: go on, `break`, `continue`, or `return` with
  a value. A loop consumes `break` and `continue` and passes `return` on.
* An error leaving a loop's body or condition records the loop (its id and
  position) on the error's loop stack, innermost first.
* A loop evaluates its header once, then runs its iterations in a fresh
  scope below the current environment; a counted loop binds its variable to
  `start`, `start + step`, … for `trips` iterations, a collection loop to
  each element, a conditional loop runs while its condition is true.
* A machine with a dispatcher hands every loop to it instead. The
  dispatcher runs the loop's iterations in a frame of the loop, either
  interpreted (the frame is then the loop's scope) or as a compiled
  artifact, profiles the site and promotes it when hot. A compiled body
  that would nest frames beyond the manager's limit is interpreted, so
  that the nesting error names the loop that crosses the limit; an
  artifact that reports a defect before its first iteration (a frame it
  does not fit) is given up for good, and the loop interpreted in its
  frame.

Recursion is bounded by a fuel argument that every nested call and every
iteration consumes; `Machine.fuel` is more than any run can use.
-/

namespace HotLoop

/-- The machine a program runs on. -/
structure Machine where
  env : Env
  out : String := ""
  mem : Manager
  /-- The dispatcher loops go through; none for plain interpretation. -/
  dispatcher : Option Dispatcher := none

/-- Computations on a machine that may fail; a failure keeps the machine as
it was when the error arose. -/
abbrev Run := EStateM Error Machine

/-- Fuel for a whole run: far beyond what any program of this library runs. -/
def Machine.fuel : Nat := Nat.pow 2 62



namespace Run

/-- The value of a name in the current environment. -/
def lookup (n : String) : Run (Option Value) :=
  fun m => .ok (m.env.lookup m.mem.arena n) m

/-- Bind a name in the innermost layer. -/
def declare (n : String) (v : Value) : Run Unit :=
  fun m =>
    let (env, arena) := m.env.declare m.mem.arena n v
    .ok () { m with env := env, mem := { m.mem with arena := arena } }

/-- Update the nearest binding of a name; an undefined name is an error
located at `p`. -/
def assign (n : String) (v : Value) (p : Pos) : Run Unit :=
  fun m =>
    match m.env.assign m.mem.arena n v with
    | some (env, arena) => .ok () { m with env := env, mem := { m.mem with arena := arena } }
    | none => .error ((Env.undefined n).at p) m

/-- Append printed text. -/
def emit (t : String) : Run Unit := fun m => .ok () { m with out := m.out ++ t }

/-- A value, or its error located at `p`. -/
def located (p : Pos) : Except Error Value → Run Value
  | .ok v => pure v
  | .error e => throw (e.at p)

/-- Run `act` inside an extra innermost layer, removed afterwards whatever
happens. -/
def within {α : Type} (layer : Layer) (act : Run α) : Run α :=
  fun m =>
    let pop (m : Machine) : Machine := { m with env := m.env.drop 1 }
    match act { m with env := layer :: m.env } with
    | .ok a m => .ok a (pop m)
    | .error e m => .error e (pop m)

/-- Run `act` and keep its error as data. -/
def attempt {α : Type} (act : Run α) : Run (Except Error α) :=
  fun m =>
    match act m with
    | .ok a m => .ok (.ok a) m
    | .error e m => .ok (.error e) m

/-- A bookkeeping step of the dispatcher, if there is one. -/
def dispatch {α : Type} [Inhabited α] (act : Dispatch α) : Run α := fun m =>
  match m.dispatcher with
  | some d => let (a, d) := act.run d; .ok a { m with dispatcher := some d }
  | none => .ok default m

/-- Open a frame for loop `l` of shape `shape` in the current environment. -/
def openFrame (l : Loop) (shape : Shape) : Run (Except Error Frame) := fun m =>
  match m.mem.enter l shape m.env with
  | .ok (fr, mem) => .ok (.ok fr) { m with mem := mem }
  | .error e => .ok (.error e) m

/-- Close frame `fr`, writing its variables back to the current
environment; the first write-back failure, if any. -/
def closeFrame (fr : Frame) : Run (Option Error) := fun m =>
  let (mem, env, err) := m.mem.exit fr m.env
  .ok err { m with mem := mem, env := env }

/-- Run `act` with frame `fr` as innermost layer; the frame as `act` left
it. -/
def inFrame {α : Type} (fr : Frame) (act : Run α) : Run (α × Frame) := fun m =>
  match act { m with env := .frame fr :: m.env } with
  | .ok a m =>
    match m.env with
    | .frame fr :: rest => .ok (a, fr) { m with env := rest }
    | _ => .ok (a, fr) m
  | .error e m => .error e { m with env := m.env.drop 1 }

/-- Run artifact `a` in frame `fr` for the loop `sub`: the outcome and the
frame as the code left it. -/
def compiled (fr : Frame) (a : Artifact) (sub : Subject) (h : Header) (fuel : Nat) :
    Run (Pass × Frame) := fun m =>
  let w : Work := { frame := fr, parent := m.env, arena := m.mem.arena }
  let (pass, w) := match a.run sub h fuel w with
    | .ok p w => (p, w)
    | .error err w => (⟨.error err, 0⟩, w)
  .ok (pass, w.frame) { m with env := w.parent, mem := { m.mem with arena := w.arena } }

/-- A frame's outcome once it is closed: a write-back failure replaces a
success. -/
def settle (r : Except Error Signal) : Option Error → Except Error Signal
  | some e => match r with
    | .ok _ => .error e
    | r => r
  | none => r

end Run

mutual
/-- Evaluate an expression. `&&` and `||` skip their right operand when the
left one decides. -/
def evalExpr : Expr → Run Value
  | .int _ n => pure (.int n)
  | .float _ x => pure (.float x)
  | .bool _ b => pure (.bool b)
  | .array _ es => do return .array (← evalExprs es)
  | .ident p n => do
    match ← Run.lookup n with
    | some v => pure v
    | none => throw ((Env.undefined n).at p)
  | .binary p op x y => do
    let a ← evalExpr x
    if op = .and ∧ !a.truthy then return .bool false
    if op = .or ∧ a.truthy then return .bool true
    let b ← evalExpr y
    Run.located p (Value.binary op a b)
  | .unary p op x => do
    let a ← evalExpr x
    Run.located p (Value.unary op a)
  | .index p x i => do
    let a ← evalExpr x
    let k ← evalExpr i
    Run.located p (Value.index a k)
  | .call p f args => do
    match Builtin.ofName? f with
    | none => throw ((Error.note ("unknown function " ++ f)).at p)
    | some b =>
      let vs ← evalExprs args
      match b.apply vs with
      | .ok (v, t) => do Run.emit t; pure v
      | .error e => throw ((Error.context f e).at p)

/-- Evaluate expressions left to right. -/
def evalExprs : List Expr → Run (List Value)
  | [] => pure []
  | e :: es => do
    let v ← evalExpr e
    let vs ← evalExprs es
    pure (v :: vs)
end

/-- A counted loop bound: an integer, else a type mismatch at the bound. -/
def evalBound (e : Expr) : Run Int64 := do
  match ← evalExpr e with
  | .int n => pure n
  | v => throw ((Error.detailed .typeMismatch ("loop bound is " ++ v.kind.name)).at e.pos)

/-- The elements of a collection, else a type mismatch at the loop. -/
def collection (v : Value) (p : Pos) : Except Error (List Value) :=
  match v with
  | .array es => .ok es
  | v => .error ((Error.detailed .typeMismatch ("cannot iterate over " ++ v.kind.name)).at p)

/-- A zero step is refused at the loop. -/
def checkStep (step : Int64) (p : Pos) : Except Error Unit :=
  if step = 0 then .error ((Error.fault .zeroStep).at p) else .ok ()

/-- Evaluate a loop header: start, end and step (given or 1) of a counted
loop, the elements of a collection loop. -/
def evalHeader (l : Loop) : Run Header :=
  match l.head with
  | .range _ a b s => do
    let start ← evalBound a
    let stop ← evalBound b
    match s with
    | none => pure { start := start, stop := stop, step := 1 }
    | some s =>
      let step ← evalBound s
      match checkStep step l.pos with
      | .ok () => pure { start := start, stop := stop, step := step }
      | .error e => throw e
  | .each _ c => do
    let v ← evalExpr c
    match collection v l.pos with
    | .ok es => pure { elems := es }
    | .error e => throw e
  | .cond _ => pure {}

mutual
/-- Run a block until a statement signals. -/
def execBlock (fuel : Nat) (ss : List Stmt) : Run Signal :=
  match fuel, ss with
  | 0, _ => throw Error.outOfFuel
  | _, [] => pure .none
  | f + 1, s :: rest => do
    match ← execStmt f s with
    | .none => execBlock f rest
    | sig => pure sig

/-- Run one statement. -/
def execStmt (fuel : Nat) (s : Stmt) : Run Signal :=
  match fuel with
  | 0 => throw Error.outOfFuel
  | f + 1 =>
    match s with
    | .declare _ n v => do Run.declare n (← evalExpr v); pure .none
    | .assign p n v => do Run.assign n (← evalExpr v) p; pure .none
    | .compound p n op v => do
      let some cur ← Run.lookup n | throw ((Env.undefined n).at p)
      let rhs ← evalExpr v
      let nv ← Run.located p (Value.binary op cur rhs)
      Run.assign n nv p
      pure .none
    | .step p n down => do
      let some cur ← Run.lookup n | throw ((Env.undefined n).at p)
      let nv ← Run.located p (Value.binary (if down then .sub else .add) cur (.int 1))
      Run.assign n nv p
      pure .none
    | .cond _ c t e => do
      if (← evalExpr c).truthy then execBlock f t else execBlock f e
    | .brk _ => pure .brk
    | .cont _ => pure .cont
    | .ret _ none => pure (.ret .nil)
    | .ret _ (some v) => do return .ret (← evalExpr v)
    | .eval _ x => do let _ ← evalExpr x; pure .none
    | .loop k p h b => do
      match (← get).dispatcher with
      | none => runLoop f ⟨k, p, h, b⟩
      | some _ => dispatchLoop f ⟨k, p, h, b⟩

/-- Run a loop met by the interpreter: evaluate its header, then its
iterations in a fresh scope. -/
def runLoop (fuel : Nat) (l : Loop) : Run Signal :=
  match fuel with
  | 0 => throw Error.outOfFuel
  | f + 1 => do
    let h ← evalHeader l
    let pass ← Run.within (.scope []) (iterate f l h)
    match pass.result with
    | .ok sig => pure sig
    | .error e => throw e

/-- Run a loop met by the interpreter through the dispatcher. -/
def dispatchLoop (fuel : Nat) (l : Loop) : Run Signal :=
  match fuel with
  | 0 => throw Error.outOfFuel
  | f + 1 => do
    let (p, s) ← Run.dispatch (Dispatch.meet l)
    let h ← evalHeader l
    if s.state = .compiled then
      if let some art ← Run.dispatch (Dispatch.acquire p) then
        let pass ← runCompiled f p s art h
        match pass.result with
        | .ok sig => return sig
        | .error e => throw e
    let pass ← runInterpreted f s h
    match pass.result with
    | .error e => throw e
    | .ok sig =>
      Run.dispatch (Dispatch.afterRun p)
      return sig

/-- Interpret the iterations of site `s` in a frame of its own, and record
the execution. -/
def runInterpreted (fuel : Nat) (s : Site) (h : Header) : Run Pass :=
  match fuel with
  | 0 => pure ⟨.error Error.outOfFuel, 0⟩
  | f + 1 => do
    match ← Run.openFrame s.loop s.shape with
    | .error e =>
      Run.dispatch (Dispatch.record s.id false 0)
      return ⟨.error e, 0⟩
    | .ok fr =>
      let (pass, fr) ← Run.inFrame fr (iterate f s.loop h)
      let err ← Run.closeFrame fr
      Run.dispatch (Dispatch.record s.id false pass.count)
      return ⟨Run.settle pass.result err, pass.count⟩

/-- Run artifact `art` for site `s`, number `p`, in a frame of its own, and
record the execution; interpret instead when its nested loops would go too
deep. An artifact that reports a defect before its first iteration leaves
the site interpreted for good, and the loop is interpreted in the same
frame; the execution still counts as compiled. -/
def runCompiled (fuel : Nat) (p : Nat) (s : Site) (art : Artifact) (h : Header) : Run Pass :=
  match fuel with
  | 0 => pure ⟨.error Error.outOfFuel, 0⟩
  | f + 1 => do
    let m ← get
    if m.mem.depth + 1 + art.nestDepth > m.mem.maxNestingDepth then
      return ← runInterpreted f s h
    match ← Run.openFrame s.loop s.shape with
    | .error e =>
      Run.dispatch (Dispatch.record s.id true 0)
      return ⟨.error e, 0⟩
    | .ok fr =>
      let (pass, fr) ← Run.compiled fr art ⟨s.shape.names, s.nodes⟩ h f
      let (pass, fr) ← match pass.defect? with
        | some e => do
          Run.dispatch (Dispatch.fail p e)
          Run.inFrame fr (iterate f s.loop h)
        | none => pure (pass, fr)
      let err ← Run.closeFrame fr
      Run.dispatch (Dispatch.record s.id true pass.count)
      return ⟨Run.settle pass.result err, pass.count⟩

/-- Run the iterations of a loop in the current environment, which is the
loop's own. -/
def iterate (fuel : Nat) (l : Loop) (h : Header) : Run Pass :=
  match fuel with
  | 0 => pure ⟨.error Error.outOfFuel, 0⟩
  | f + 1 =>
    match l.head with
    | .range v .. => iterRange f l v h.step h.start h.trips 0
    | .each v _ => iterEach f l v h.elems 0
    | .cond c => iterWhile f l c 0

/-- One iteration of the body; `some` when the loop stops with that signal
or error. -/
def iteration (fuel : Nat) (l : Loop) : Run (Option (Except Error Signal)) :=
  match fuel with
  | 0 => pure (some (.error Error.outOfFuel))
  | f + 1 => do
    match ← Run.attempt (execBlock f l.body) with
    | .error e => pure (some (.error (e.throughLoop l.frameEntry)))
    | .ok .brk => pure (some (.ok .none))
    | .ok (.ret v) => pure (some (.ok (.ret v)))
    | .ok _ => pure none

/-- Iterations of a counted loop from `cur`, `trips` of them left, `n`
started so far. -/
def iterRange (fuel : Nat) (l : Loop) (v : String) (step cur : Int64) (trips n : Nat) : Run Pass :=
  match fuel, trips with
  | 0, _ => pure ⟨.error Error.outOfFuel, n⟩
  | _, 0 => pure ⟨.ok .none, n⟩
  | f + 1, t + 1 => do
    Run.declare v (.int cur)
    match ← iteration f l with
    | some r => pure ⟨r, n + 1⟩
    | none => iterRange f l v step (cur + step) t (n + 1)

/-- Iterations of a collection loop over the remaining elements. -/
def iterEach (fuel : Nat) (l : Loop) (v : String) (elems : List Value) (n : Nat) : Run Pass :=
  match fuel, elems with
  | 0, _ => pure ⟨.error Error.outOfFuel, n⟩
  | _, [] => pure ⟨.ok .none, n⟩
  | f + 1, e :: rest => do
    Run.declare v e
    match ← iteration f l with
    | some r => pure ⟨r, n + 1⟩
    | none => iterEach f l v rest (n + 1)

/-- Iterations of a conditional loop; an error of the condition leaves the
loop like an error of the body. -/
def iterWhile (fuel : Nat) (l : Loop) (c : Expr) (n : Nat) : Run Pass :=
  match fuel with
  | 0 => pure ⟨.error Error.outOfFuel, n⟩
  | f + 1 => do
    match ← Run.attempt (evalExpr c) with
    | .error e => pure ⟨.error (e.throughLoop l.frameEntry), n⟩
    | .ok cv =>
      if !cv.truthy then pure ⟨.ok .none, n⟩
      else
        match ← iteration f l with
        | some r => pure ⟨r, n + 1⟩
        | none => iterWhile f l c (n + 1)
end

end HotLoop
