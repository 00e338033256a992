import HotLoop.Compile.Artifact
import HotLoop.Eval.Pass
import HotLoop.Memory.Frame
/-!
# HotLoop.Compile.Run

Running compiled code against a loop frame. The code addresses variables
by canonical index and slot, and nodes by pre-order index; the loop it runs
for supplies the names and the nodes, so errors carry that loop's names and
positions.

* A variable whose slot is set is read and written there; otherwise the
  enclosing environment resolves it, and an unbound name is an undefined
  variable at the node.
* Hoisted expressions are evaluated once before the first iteration; their
  values, or the errors they raised, are handed out where the expressions
  stood.
* An integer reduction whose accumulator holds an integer on entry keeps
  `width` partial results, lane `iteration mod width`, starting from the
  operator's identity; they are folded into the accumulator when the loop
  ends, however it ends, or as soon as a contribution is not an integer,
  after which the update runs as written. Wrapping `+` and `*` are
  associative and commutative, so the fold equals the sequential result.
* Nested loops run in the same frame; the names they declare are cleared
  when they end.
* A counted loop unrolled by `u` runs blocks of `u` iterations that share
  one check of the trips left, then the trips left over one by one.
* An artifact runs only in a frame with as many slots as its layout; any
  other frame is refused as a defect before the first iteration.
-/

namespace HotLoop

/-- What compiled code reads of the loop it runs for. -/
structure Subject where
  /-- Names by canonical index. -/
  names : Array String
  /-- Nodes by pre-order index. -/
  nodes : Array Node

namespace Subject

/-- The position of node `i`. -/
def pos (s : Subject) (i : Nat) : Pos := (s.nodes[i]?.map Node.pos).getD Pos.none

/-- The loop stack entry of the loop at node `i`. -/
def loopAt (s : Subject) (i : Nat) : LoopFrame :=
  match s.nodes[i]? with
  | some (.stmt (.loop k p h b)) => Loop.frameEntry ⟨k, p, h, b⟩
  | _ => ⟨"", 0, 0⟩

/-- The name of canonical variable `i`. -/
def name (s : Subject) (i : Nat) : String := s.names.getD i ""

end Subject

/-- The state of compiled code while it runs. -/
structure Work where
  frame : Frame
  /-- The environment enclosing the frame. -/
  parent : Env
  arena : Arena
  hoist : Array (Except Error Value) := #[]
  lanes : Array (Array Int64) := #[]
  laneOn : Array Bool := #[]
  /-- The iteration of the compiled loop under way. -/
  iter : Nat := 0

/-- Compiled code in action; a failure keeps the state it arose in. -/
abbrev Act := EStateM Error Work

namespace Act

/-- The value in a slot, if set. -/
def get? (slot : Nat) : Act (Option Value) := fun w => .ok (w.frame.get? w.arena slot) w

/-- Store a value in a slot. -/
def put (slot : Nat) (v : Value) : Act Unit := fun w =>
  let (f, a) := w.frame.put w.arena slot v
  .ok () { w with frame := f, arena := a }

/-- Store an integer in a slot. -/
def putInt (slot : Nat) (n : Int64) : Act Unit := fun w =>
  let (f, a) := w.frame.putInt w.arena slot n
  .ok () { w with frame := f, arena := a }

/-- The word of a slot as an integer. -/
def int (slot : Nat) : Act Int64 := fun w => .ok (w.frame.int w.arena slot) w

/-- Read canonical variable `i` from the enclosing environment. -/
def lookup (s : Subject) (i node : Nat) : Act Value := fun w =>
  match w.parent.lookup w.arena (s.name i) with
  | some v => .ok v w
  | none => .error ((Env.undefined (s.name i)).at (s.pos node)) w

/-- Read canonical variable `i`: its slot when set, else the environment. -/
def read (s : Subject) (i : Nat) (slot : Option Nat) (node : Nat) : Act Value := do
  if let some sl := slot then
    if let some v ← get? sl then return v
  lookup s i node

/-- Write canonical variable `i`: its slot when set, else the nearest
binding of the environment. -/
def write (s : Subject) (i : Nat) (slot : Option Nat) (node : Nat) (v : Value) : Act Unit := fun w =>
  match slot with
  | some sl =>
    if w.frame.slotSet sl then put sl v w else viaParent w
  | none => viaParent w
where
  viaParent (w : Work) : EStateM.Result Error Work Unit :=
    match w.parent.assign w.arena (s.name i) v with
    | some (env, a) => .ok () { w with parent := env, arena := a }
    | none => .error ((Env.undefined (s.name i)).at (s.pos node)) w

/-- A result of a value operation, its error located at node `node`. -/
def located (s : Subject) (node : Nat) : Except Error Value → Act Value
  | .ok v => pure v
  | .error e => throw (e.at (s.pos node))

/-- Run `act` and map its error. -/
def mapError {α : Type} (f : Error → Error) (act : Act α) : Act α := fun w =>
  match act w with
  | .ok a w => .ok a w
  | .error e w => .error (f e) w

/-- Run `act`, then `cleanup` the state whatever happened. -/
def always {α : Type} (act : Act α) (cleanup : Work → Work) : Act α := fun w =>
  match act w with
  | .ok a w => .ok a (cleanup w)
  | .error e w => .error e (cleanup w)

end Act

/-- `x` times the constant whose set bits are `shifts`, as a sum of shifts;
wraps like the multiplication it replaces. -/
def shiftAdd (x : Int64) (shifts : List Nat) : Int64 :=
  shifts.foldl (fun acc s => acc + (x <<< s.toInt64)) 0

/-- The identity of a reduction operator. -/
def Op.identity (op : Op) : Int64 := if op = .mul then 1 else 0

/-- Combine two partial results of a reduction. -/
def Op.combine (op : Op) (a b : Int64) : Int64 := if op = .mul then a * b else a + b

mutual
/-- Evaluate compiled expression code. -/
def Calc.eval (s : Subject) : Calc → Act Value
  | .const v => pure v
  | .hoisted k => fun w =>
    match w.hoist[k]? with
    | some (.ok v) => .ok v w
    | some (.error e) => .error e w
    | none => .ok .nil w
  | .array es => do return .array (← Calc.evalAll s es)
  | .var i slot node => Act.read s i slot node
  | .logic short op x y node => do
    let a ← Calc.eval s x
    if a.truthy = short then return .bool short
    let b ← Calc.eval s y
    Act.located s node (Value.binary op a b)
  | .scaled op shifts litLeft x y node => do
    let a ← Calc.eval s x
    let b ← Calc.eval s y
    match (if litLeft then b else a) with
    | .int n => return .int (shiftAdd n shifts)
    | _ => Act.located s node (Value.binary op a b)
  | .binary op x y node => do
    let a ← Calc.eval s x
    let b ← Calc.eval s y
    Act.located s node (Value.binary op a b)
  | .unary op x node => do
    let a ← Calc.eval s x
    Act.located s node (Value.unary op a)
  | .index x i node => do
    let a ← Calc.eval s x
    let k ← Calc.eval s i
    Act.located s node (Value.index a k)

/-- Evaluate a list of expression codes left to right. -/
def Calc.evalAll (s : Subject) : List Calc → Act (List Value)
  | [] => pure []
  | c :: cs => do
    let v ← Calc.eval s c
    let vs ← Calc.evalAll s cs
    return v :: vs
end

/-- A counted loop bound of a nested loop: an integer, else a type mismatch
at the bound. -/
def Bound.eval (s : Subject) (b : Bound) : Act Int64 := do
  match ← b.value.eval s with
  | .int n => return n
  | v => throw ((Error.detailed .typeMismatch ("loop bound is " ++ v.kind.name)).at (s.pos b.node))

/-- Run a compiled assignment: `x op= e` reads `x` before it evaluates `e`. -/
def Update.exec (s : Subject) : Update → Act Unit
  | .store i slot node v => do Act.write s i slot node (← v.eval s)
  | .compound i slot node op rhs shifts => do
    let cur ← Act.read s i slot node
    let y ← rhs.eval s
    let v ← match shifts, cur with
      | some sh, .int n => pure (.int (shiftAdd n sh))
      | _, _ => Act.located s node (Value.binary op cur y)
    Act.write s i slot node v

/-- Fold the lanes of reduction `j` into its slot and close them. -/
def flushLane (j slot : Nat) (op : Op) : Act Unit := fun w =>
  if w.laneOn.getD j false then
    let acc := (w.lanes.getD j #[]).foldl op.combine (w.frame.int w.arena slot)
    let (f, a) := w.frame.putInt w.arena slot acc
    .ok () { w with frame := f, arena := a, laneOn := w.laneOn.set! j false }
  else .ok () w

/-- Open lanes for every reduction whose accumulator holds an integer. -/
def openLanes (lanes : List (Nat × Op)) (width : Nat) : Act Unit := fun w =>
  let open1 (slot : Nat) (op : Op) : Array Int64 × Bool :=
    match w.frame.get? w.arena slot with
    | some (.int _) => (Array.replicate width op.identity, true)
    | _ => (#[], false)
  let opened := lanes.map fun (slot, op) => open1 slot op
  .ok () { w with lanes := (opened.map (·.1)).toArray, laneOn := (opened.map (·.2)).toArray }

/-- Fold every open lane back. -/
def closeLanes (lanes : List (Nat × Op)) (w : Work) : Work :=
  let step (w : Work) (p : Nat × (Nat × Op)) : Work :=
    match flushLane p.1 p.2.1 p.2.2 w with
    | .ok _ w => w
    | .error _ w => w
  lanes.zipIdx.foldl (fun w (x, j) => step w (j, x)) w

/-- Clear the slots of names a nested loop declared. -/
def unscope (locals : List Nat) (w : Work) : Work :=
  { w with frame := locals.foldl Frame.unset w.frame }

/-- One iteration of a nested loop at node `node`, from the run of its
body: `some` when the loop stops with that signal. An error leaving the
body records the loop. -/
def Code.innerStep (s : Subject) (node : Nat) (body : Act Signal) : Act (Option Signal) := do
  match ← Act.mapError (·.throughLoop (s.loopAt node)) body with
  | .brk => return some .none
  | .ret v => return some (.ret v)
  | _ => return none

mutual
/-- Run one compiled statement. -/
def Code.exec (s : Subject) (width : Nat) (fuel : Nat) (c : Code) : Act Signal :=
  match fuel with
  | 0 => throw Error.outOfFuel
  | f + 1 =>
    match c with
    | .put slot v => do Act.put slot (← v.eval s); return .none
    | .update u => do u.exec s; return .none
    | .bump i slot node down => do
      let w ← get
      if w.frame.slotSet slot ∧ w.frame.kind slot = .int then
        Act.putInt slot ((← Act.int slot) + (if down then -1 else 1))
      else
        let cur ← Act.read s i (some slot) node
        let v ← Act.located s node (Value.binary (if down then .sub else .add) cur (.int 1))
        Act.write s i (some slot) node v
      return .none
    | .branch c thn els unlikely => do
      let v ← c.eval s
      if unlikely then
        if !v.truthy then Code.execAll s width f els else Code.execAll s width f thn
      else
        if v.truthy then Code.execAll s width f thn else Code.execAll s width f els
    | .brk => pure .brk
    | .cont => pure .cont
    | .ret none => pure (.ret .nil)
    | .ret (some v) => do return .ret (← v.eval s)
    | .eval x => do let _ ← x.eval s; return .none
    | .reduce j slot op contrib node accLeft seq => do
      let w ← get
      if !(w.laneOn.getD j false) then do seq.exec s; return .none
      else
        let y ← contrib.eval s
        match y with
        | .int n =>
          let lane := w.iter % width
          modify fun w => { w with lanes := w.lanes.modify j fun ps => ps.modify lane (op.combine · n) }
          return .none
        | _ =>
          flushLane j slot op
          let cur : Value := .int (← Act.int slot)
          let (a, b) := if accLeft then (cur, y) else (y, cur)
          let v ← Act.located s node (Value.binary op a b)
          Act.put slot v
          return .none
    | .nested node locals head body =>
      match head with
      | .range start stop step counter => do
        let a ← start.eval s
        let z ← stop.eval s
        let st ← match step with
          | none => pure 1
          | some b => do
            let st ← b.eval s
            if st = 0 then throw ((Error.fault .zeroStep).at (s.pos node))
            pure st
        let h : Header := { start := a, stop := z, step := st }
        Act.always (Code.innerRange s width f node body counter st a h.trips) (unscope locals)
      | .each coll slot => do
        match ← coll.eval s with
        | .array es => Act.always (Code.innerEach s width f node body slot es) (unscope locals)
        | v => throw ((Error.detailed .typeMismatch ("cannot iterate over " ++ v.kind.name)).at
            (s.pos node))
      | .cond c => Act.always (Code.innerWhile s width f node body c) (unscope locals)
termination_by structural fuel

/-- Run compiled statements until one signals. -/
def Code.execAll (s : Subject) (width : Nat) (fuel : Nat) (cs : List Code) : Act Signal :=
  match fuel, cs with
  | 0, _ => throw Error.outOfFuel
  | _, [] => pure .none
  | f + 1, c :: rest => do
    match ← Code.exec s width f c with
    | .none => Code.execAll s width f rest
    | sig => pure sig
termination_by structural fuel

/-- The iterations of a nested counted loop from counter `cur`, `trips`
left. -/
def Code.innerRange (s : Subject) (width : Nat) (fuel : Nat) (node : Nat) (body : List Code)
    (counter : Nat) (step cur : Int64) (trips : Nat) : Act Signal :=
  match fuel, trips with
  | 0, _ => throw Error.outOfFuel
  | _, 0 => pure .none
  | f + 1, t + 1 => do
    Act.putInt counter cur
    match ← Code.innerStep s node (Code.execAll s width f body) with
    | some sig => pure sig
    | none => Code.innerRange s width f node body counter step (cur + step) t
termination_by structural fuel

/-- The iterations of a nested collection loop over the remaining
elements. -/
def Code.innerEach (s : Subject) (width : Nat) (fuel : Nat) (node : Nat) (body : List Code)
    (slot : Nat) (elems : List Value) : Act Signal :=
  match fuel, elems with
  | 0, _ => throw Error.outOfFuel
  | _, [] => pure .none
  | f + 1, e :: rest => do
    Act.put slot e
    match ← Code.innerStep s node (Code.execAll s width f body) with
    | some sig => pure sig
    | none => Code.innerEach s width f node body slot rest
termination_by structural fuel

/-- The iterations of a nested conditional loop; an error of the condition
records the loop too. -/
def Code.innerWhile (s : Subject) (width : Nat) (fuel : Nat) (node : Nat) (body : List Code)
    (c : Calc) : Act Signal :=
  match fuel with
  | 0 => throw Error.outOfFuel
  | f + 1 => do
    let v ← Act.mapError (·.throughLoop (s.loopAt node)) (c.eval s)
    if !v.truthy then return .none
    match ← Code.innerStep s node (Code.execAll s width f body) with
    | some sig => pure sig
    | none => Code.innerWhile s width f node body c
termination_by structural fuel
end

namespace Entry

/-- One iteration `n` of the compiled loop: `some` when the loop stops. An
error leaving the body records the loop. -/
def iteration (e : Entry) (s : Subject) (fuel n : Nat) : Act (Option (Except Error Signal)) :=
  fun w =>
    match Code.execAll s e.width fuel e.body { w with iter := n } with
    | .error err w => .ok (some (.error (err.throughLoop (s.loopAt 0)))) w
    | .ok .brk w => .ok (some (.ok .none)) w
    | .ok (.ret v) w => .ok (some (.ok (.ret v))) w
    | .ok _ w => .ok none w

/-- Counted iterations from `cur`, `trips` left, `n` started. -/
def range (e : Entry) (s : Subject) (counter : Nat) (step : Int64) (fuel : Nat) (cur : Int64)
    (trips n : Nat) : Act Pass :=
  match fuel, trips with
  | 0, _ => pure ⟨.error Error.outOfFuel, n⟩
  | _, 0 => pure ⟨.ok .none, n⟩
  | f + 1, t + 1 => do
    Act.putInt counter cur
    match ← e.iteration s f n with
    | some r => pure ⟨r, n + 1⟩
    | none => e.range s counter step f (cur + step) t (n + 1)

/-- A block of `j` counted iterations from `cur`, `n` started, then `next`
with the fuel, counter and count left; an iteration that stops the loop
ends it inside the block. -/
def block (e : Entry) (s : Subject) (counter : Nat) (step : Int64)
    (next : Nat → Int64 → Nat → Act Pass) : (fuel : Nat) → (cur : Int64) → (j n : Nat) → Act Pass
  | fuel, cur, 0, n => next fuel cur n
  | 0, _, _ + 1, n => pure ⟨.error Error.outOfFuel, n⟩
  | f + 1, cur, j + 1, n => do
    Act.putInt counter cur
    match ← e.iteration s f n with
    | some r => pure ⟨r, n + 1⟩
    | none => e.block s counter step next f (cur + step) j (n + 1)

/-- Counted iterations unrolled by `u`: while at least `u > 1` trips are
left, blocks of `u` iterations share one trip check; the trips left after
the last block run one by one. -/
def unrolled (e : Entry) (s : Subject) (counter u : Nat) (step : Int64) (fuel : Nat) (cur : Int64)
    (trips n : Nat) : Act Pass :=
  if _ : 1 < u ∧ u ≤ trips then
    e.block s counter step (fun f c m => e.unrolled s counter u step f c (trips - u) m) fuel cur u n
  else e.range s counter step fuel cur trips n
termination_by trips
decreasing_by omega

/-- Collection iterations over the remaining elements. -/
def each (e : Entry) (s : Subject) (slot : Nat) (fuel : Nat) (elems : List Value) (n : Nat) :
    Act Pass :=
  match fuel, elems with
  | 0, _ => pure ⟨.error Error.outOfFuel, n⟩
  | _, [] => pure ⟨.ok .none, n⟩
  | f + 1, x :: rest => do
    Act.put slot x
    match ← e.iteration s f n with
    | some r => pure ⟨r, n + 1⟩
    | none => e.each s slot f rest (n + 1)

/-- Conditional iterations; an error of the condition records the loop. -/
def whileTrue (e : Entry) (s : Subject) (c : Calc) (fuel : Nat) (n : Nat) : Act Pass :=
  match fuel with
  | 0 => pure ⟨.error Error.outOfFuel, n⟩
  | f + 1 => fun w =>
    match c.eval s w with
    | .error err w => .ok ⟨.error (err.throughLoop (s.loopAt 0)), n⟩ w
    | .ok v w =>
      if !v.truthy then .ok ⟨.ok .none, n⟩ w
      else
        match e.iteration s f n w with
        | .ok (some r) w => .ok ⟨r, n + 1⟩ w
        | .ok none w => e.whileTrue s c f (n + 1) w
        | .error err w => .error err w

/-- Evaluate the hoisted expressions, keeping their values or errors. -/
def prologue (e : Entry) (s : Subject) : Act Unit := fun w =>
  let results := e.hoisted.map fun c =>
    match c.eval s w with
    | .ok v _ => Except.ok v
    | .error err _ => .error err
  .ok () { w with hoist := results.toArray }

/-- Run the compiled loop with header `h` for the loop `s`: the signal or
error it ends with and the number of iterations it started. -/
def run (e : Entry) (s : Subject) (h : Header) (fuel : Nat) : Act Pass := do
  e.prologue s
  match e.head with
  | .range counter u =>
    if e.lanes.isEmpty then e.unrolled s counter u h.step fuel h.start h.trips 0
    else
      openLanes e.lanes e.width
      Act.always (e.unrolled s counter u h.step fuel h.start h.trips 0) (closeLanes e.lanes)
  | .each slot => e.each s slot fuel h.elems 0
  | .cond c => e.whileTrue s c fuel 0

end Entry

/-- The defect of a frame of `slots` slots handed to an artifact laid out
for `n`. -/
def Error.layoutMismatch (slots n : Nat) : Error :=
  .detailed .internal ("frame has " ++ toString slots ++ " slots, layout " ++ toString n)

/-- Run artifact `a` in the frame of the work. Artifacts are shared by
fingerprint, so a frame of another shape can reach one, through a collision
of shape hashes: a frame whose number of slots is not the layout's is
refused before any iteration. -/
def Artifact.run (a : Artifact) (s : Subject) (h : Header) (fuel : Nat) : Act Pass := fun w =>
  if w.frame.numSlots = a.layout.length then a.entry.run s h fuel w
  else .error (Error.layoutMismatch w.frame.numSlots a.layout.length) w

end HotLoop
