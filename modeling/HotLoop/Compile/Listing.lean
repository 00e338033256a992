import HotLoop.Compile.Code
/-!
# HotLoop.Compile.Listing

The LLVM IR listing of a compiled loop: the integer specialisation of a
counted loop as a function

    i64 @loop_<hash>(i64* %slots, i64* %env, i64 %start, i64 %step, i64 %trips)

that returns the number of iterations it started. `%slots` is the loop's
frame, `%env` holds the captured variables in canonical order. Whenever a
value stops being an integer, or the body does something the
specialisation leaves to the compiled tree (returns, nested loops, arrays,
floats), the function calls `@cn_deopt` with the pre-order index of the
node and returns -1.

The listing is built as a control-flow graph: blocks are created in order
and named `<role>.<n>`, each holds instructions and at most one terminator,
and a later terminator replaces an earlier one. Values are numbered only
when the listing is printed, in block order, counting the instructions that
produce a value. A block left without terminator cannot be printed: the
listing then fails, and so does the compilation.

A selection's strategies show here too: hoisted integer expressions are
computed once in the entry block, multiplications by constants become sums
of shifts, hinted conditions go through `@llvm.expect.i1`, and unrolling
emits a loop running several copies of the body per trip check, followed by
a loop for the remaining trips.
-/

namespace HotLoop

namespace Listing

/-- Operands of instructions. -/
inductive Operand where
  | int (n : Int)
  | bool (b : Bool)
  /-- The result of the instruction with this handle. -/
  | temp (h : Nat)
  | param (name : String)
  deriving Inhabited, Repr, BEq

/-- Whether an operand is an integer constant. -/
def Operand.isInt : Operand → Bool
  | .int _ => true
  | _ => false

/-- Instructions. Those producing a value carry the handle of that value. -/
inductive Inst where
  | phi (h : Nat) (incoming : List (Operand × Nat))
  /-- An operation on two values of type `i1` (`wide = false`) or `i64`. -/
  | arith (h : Nat) (opcode : String) (wide : Bool) (x y : Operand)
  | icmp (h : Nat) (pred : String) (x y : Operand)
  | gep (h : Nat) (base : String) (idx : Int)
  | load (h : Nat) (ptr : Operand)
  | store (v ptr : Operand)
  | expect (h : Nat) (c : Operand) (likely : Bool)
  | deopt (node : Nat)
  deriving Inhabited, Repr

/-- The handle of the value an instruction produces. -/
def Inst.result? : Inst → Option Nat
  | .phi h _ | .arith h .. | .icmp h .. | .gep h .. | .load h _ | .expect h .. => some h
  | .store .. | .deopt _ => none

/-- Block terminators; targets are block numbers. -/
inductive Term where
  | br (target : Nat)
  | condBr (c : Operand) (t f : Nat)
  | ret (v : Operand)
  | unreachable
  deriving Inhabited, Repr

/-- A basic block. -/
structure Block where
  name : String
  insts : Array Inst := #[]
  term : Option Term := none
  deriving Inhabited, Repr

/-- A function body under construction. -/
structure Graph where
  blocks : Array Block := #[{ name := "entry" }]
  /-- Blocks named so far, for the numeric suffix. -/
  named : Nat := 0
  /-- Handles given out so far. -/
  handles : Nat := 0
  deriving Inhabited

/-- Building a graph. -/
abbrev Build := StateM Graph

/-- A new block `<role>.<n>`. -/
def newBlock (role : String) : Build Nat :=
  modifyGet fun g =>
    let n := g.named + 1
    (g.blocks.size, { g with blocks := g.blocks.push { name := role ++ "." ++ toString n }, named := n })

/-- Append an instruction to a block. -/
def push (b : Nat) (i : Inst) : Build Unit :=
  modify fun g => { g with blocks := g.blocks.modify b fun blk => { blk with insts := blk.insts.push i } }

/-- Append an instruction producing a value, and return the value. -/
def emit (b : Nat) (mk : Nat → Inst) : Build Operand := do
  let h ← modifyGet fun g => (g.handles, { g with handles := g.handles + 1 })
  push b (mk h)
  return .temp h

/-- Set the terminator of a block, replacing any earlier one. -/
def terminate (b : Nat) (t : Term) : Build Unit :=
  modify fun g => { g with blocks := g.blocks.modify b fun blk => { blk with term := some t } }

/-- Add an incoming edge to the phi `p` in block `b`. -/
def addIncoming (b : Nat) (p : Operand) (v : Operand) (src : Nat) : Build Unit :=
  modify fun g => { g with blocks := g.blocks.modify b fun blk =>
    { blk with insts := blk.insts.map fun
      | .phi h inc => if Operand.temp h == p then .phi h (inc ++ [(v, src)]) else .phi h inc
      | i => i } }

/-! ## Printing -/

/-- Value numbers, in block order, of the instructions producing a value. -/
def Graph.numbering (g : Graph) : List (Nat × Nat) :=
  let results := g.blocks.toList.flatMap fun b => b.insts.toList.filterMap Inst.result?
  results.zipIdx

/-- The text of an operand. -/
def Operand.text (ids : List (Nat × Nat)) : Operand → String
  | .int n => toString n
  | .bool b => if b then "true" else "false"
  | .temp h => "%" ++ toString ((ids.lookup h).getD 0)
  | .param p => "%" ++ p

/-- The text of an instruction. -/
def Inst.text (ids : List (Nat × Nat)) (names : Nat → String) (i : Inst) : String :=
  let o := Operand.text ids
  let res (h : Nat) := "%" ++ toString ((ids.lookup h).getD 0) ++ " = "
  match i with
  | .phi h inc =>
    res h ++ "phi i64 " ++ ", ".intercalate (inc.map fun (v, b) => "[ " ++ o v ++ ", %" ++ names b ++ " ]")
  | .arith h op wide x y =>
    res h ++ op ++ (if wide then " i64 " else " i1 ") ++ o x ++ ", " ++ o y
  | .icmp h p x y => res h ++ "icmp " ++ p ++ " i64 " ++ o x ++ ", " ++ o y
  | .gep h base k => res h ++ "getelementptr i64, i64* %" ++ base ++ ", i64 " ++ toString k
  | .load h p => res h ++ "load i64, i64* " ++ o p
  | .store v p => "store i64 " ++ o v ++ ", i64* " ++ o p
  | .expect h c likely =>
    res h ++ "call i1 @llvm.expect.i1(i1 " ++ o c ++ ", i1 " ++ (if likely then "true" else "false") ++ ")"
  | .deopt n => "call void @cn_deopt(i64 " ++ toString n ++ ")"

/-- The text of a terminator. -/
def Term.text (ids : List (Nat × Nat)) (names : Nat → String) : Term → String
  | .br t => "br label %" ++ names t
  | .condBr c t f => "br i1 " ++ Operand.text ids c ++ ", label %" ++ names t ++ ", label %" ++ names f
  | .ret v => "ret i64 " ++ Operand.text ids v
  | .unreachable => "unreachable"

/-- Why a listing cannot be printed: the block `name`, whose instructions
read `body`, has no terminator. -/
def unterminated (name body : String) : String :=
  "missing terminator in basic block \"" ++ name ++ "\".\ncurrent instructions:\n" ++ name ++ ":\n" ++ body

/-- The text of a function body: its blocks separated by blank lines. The
first block without terminator stops it, with its instructions numbered as
in the whole function. -/
def Graph.text (g : Graph) : Except String String := do
  let ids := g.numbering
  let names (b : Nat) : String := (g.blocks[b]?.map (·.name)).getD ""
  let blocks ← g.blocks.toList.mapM fun b => do
    let lines := String.join (b.insts.toList.map (fun i => "\t" ++ i.text ids names ++ "\n"))
    let some t := b.term | throw (unterminated b.name lines)
    return b.name ++ ":\n" ++ lines ++ "\t" ++ t.text ids names ++ "\n"
  return "\n".intercalate blocks

/-- The whole module: the two declarations and the loop function. -/
def Graph.module (g : Graph) (hash : UInt64) : Except String String := do
  let body ← g.text
  return "declare void @cn_deopt(i64 %node)\n\n" ++
    "declare i1 @llvm.expect.i1(i1 %0, i1 %1)\n\n" ++
    "define i64 @loop_" ++ hex16 hash ++
    "(i64* %slots, i64* %env, i64 %start, i64 %step, i64 %trips) \x7b\n" ++ body ++ "\x7d\n"

/-! ## Lowering -/

/-- What lowering a loop body needs. -/
structure Lowering where
  shape : Shape
  sel : Selection
  key : Nat
  counter : Int
  /-- Hoisted values by pre-order index in the selection's loop. -/
  hoisted : List (Nat × Operand) := []

namespace Lowering

/-- Leave the specialisation at node `n`. -/
def bail (b n : Nat) : Build Unit := do
  push b (.deopt n)
  terminate b (.ret (.int (-1)))

/-- A pointer to a slot of the frame. -/
def slotPtr (b : Nat) (slot : Int) : Build Operand := emit b (.gep · "slots" slot)

/-- The `i64` predicate of a comparison. -/
def pred : Op → String
  | .lt => "slt" | .le => "sle" | .gt => "sgt" | .ge => "sge" | .eq => "eq" | _ => "ne"

/-- Lower an integer operator. Operands that would fault divert to a deopt
block reporting node `node`; returns the block control continues in. -/
def arith (w : Lowering) (o : Origin) (b : Nat) (i : Nat) (op : Op) (x y : Operand) :
    Build (Nat × Option Operand) := do
  let guard (bad : Operand) : Build Nat := do
    let fail ← newBlock "deopt"
    let ok ← newBlock "cont"
    terminate b (.condBr bad fail ok)
    bail fail (o.node i)
    return ok
  match op with
  | .add => return (b, some (← emit b (.arith · "add" true x y)))
  | .sub => return (b, some (← emit b (.arith · "sub" true x y)))
  | .mul =>
    match w.sel.shiftsAt? o.key i with
    | some shifts =>
      let operand := if y.isInt then x else y
      let step (acc : Operand) (s : Nat) : Build Operand := do
        let sh ← emit b (.arith · "shl" true operand (.int s))
        emit b (.arith · "add" true acc sh)
      let acc ← List.foldlM step (Operand.int 0) shifts
      return (b, some acc)
    | none => return (b, some (← emit b (.arith · "mul" true x y)))
  | .div | .mod =>
    let zero ← emit b (.icmp · "eq" y (.int 0))
    let minus ← emit b (.icmp · "eq" y (.int (-1)))
    let bad ← emit b (.arith · "or" false zero minus)
    let b ← guard bad
    return (b, some (← emit b (.arith · (if op = .div then "sdiv" else "srem") true x y)))
  | .shl | .shr =>
    let bad ← emit b (.icmp · "uge" y (.int 64))
    let b ← guard bad
    return (b, some (← emit b (.arith · (if op = .shl then "shl" else "ashr") true x y)))
  | .band => return (b, some (← emit b (.arith · "and" true x y)))
  | .bor => return (b, some (← emit b (.arith · "or" true x y)))
  | .bxor => return (b, some (← emit b (.arith · "xor" true x y)))
  | _ => return (b, none)

/-- The origin of the lowered loop's own nodes. -/
def own (w : Lowering) : Origin := ⟨w.key, true⟩

/-- The hoisted value of node `i` of the loop with key `key`. -/
def hoistedAt? (w : Lowering) (key i : Nat) : Option Operand :=
  if key = w.sel.loop then w.hoisted.lookup i else none

/-- A lowered value as a condition: an integer is compared with zero. -/
def toCond (b : Nat) : Option (Operand × Bool) → Build (Option Operand)
  | none => pure none
  | some (v, true) => pure (some v)
  | some (v, false) => some <$> emit b (.icmp · "ne" v (.int 0))

/-- Lower the expression at pre-order index `i` into block `b`: its value
and whether it is an `i1`, or `none` when the specialisation does not cover
it, with the block control continues in. -/
def expr (w : Lowering) (o : Origin) (b : Nat) (i : Nat) (e : Expr) :
    Build (Nat × Option (Operand × Bool)) :=
  match w.hoistedAt? o.key i with
  | some v => pure (b, some (v, false))
  | none =>
    match e with
    | .int _ n => pure (b, some (.int n.toInt, false))
    | .bool _ v => pure (b, some (.bool v, true))
    | .ident _ n => do
      let k := (w.shape.index? n).getD 0
      let s := w.shape.slot k
      let p ← if s ≥ 0 then slotPtr b s
        else emit b (.gep · "env" ((w.shape.captured.idxOf? k).getD 0))
      return (b, some (← emit b (.load · p), false))
    | .unary _ op x => do
      let (b, r) ← expr w o b (i + 1) x
      match r, op with
      | some (v, false), .neg => return (b, some (← emit b (.arith · "sub" true (.int 0) v), false))
      | some (v, true), .not => return (b, some (← emit b (.arith · "xor" false v (.bool true)), true))
      | some (v, false), .not => return (b, some (← emit b (.icmp · "eq" v (.int 0)), true))
      | _, _ => return (b, none)
    | .binary _ op x y => do
      if op = .and ∨ op = .or then
        let (b, rx) ← expr w o b (i + 1) x
        let some cx ← toCond b rx | return (b, none)
        let (b, ry) ← expr w o b (i + 1 + x.size) y
        let some cy ← toCond b ry | return (b, none)
        return (b, some (← emit b (.arith · (if op = .and then "and" else "or") false cx cy), true))
      let (b, rx) ← expr w o b (i + 1) x
      let some (vx, false) := rx | return (b, none)
      let (b, ry) ← expr w o b (i + 1 + x.size) y
      let some (vy, false) := ry | return (b, none)
      if op.isComparison then return (b, some (← emit b (.icmp · (pred op) vx vy), true))
      let (b, r) ← arith w o b i op vx vy
      return (b, r.map (·, false))
    | _ => pure (b, none)

/-- Store into the slot of a name. -/
def store (w : Lowering) (b : Nat) (n : String) (v : Operand) : Build Unit := do
  let p ← slotPtr b (w.shape.slot ((w.shape.index? n).getD 0))
  push b (.store v p)

/-- Load the slot of a name. -/
def load (w : Lowering) (b : Nat) (n : String) : Build Operand := do
  let p ← slotPtr b (w.shape.slot ((w.shape.index? n).getD 0))
  emit b (.load · p)

mutual
/-- Lower the statement at pre-order index `i` into block `b`, in the
iteration counted by `k`, where `continue` goes to `next`. Returns the block
control falls out of, `none` when every path has left. -/
def stmt (w : Lowering) (b : Nat) (i : Nat) (s : Stmt) (k : Operand) (next : Nat) :
    Build (Option Nat) :=
  match s with
  | .declare _ n v | .assign _ n v => do
    let (b, r) ← w.expr w.own b (i + 1) v
    let some (x, false) := r | do bail b i; return none
    w.store b n x
    return some b
  | .compound _ n op v => do
    let (b, r) ← w.expr w.own b (i + 1) v
    let some (y, false) := r | do bail b i; return none
    let cur ← w.load b n
    let (b, r) ← w.arith w.own b i op cur y
    let some x := r | do bail b i; return none
    w.store b n x
    return some b
  | .step _ n down => do
    let cur ← w.load b n
    let x ← emit b (.arith · "add" true cur (.int (if down then -1 else 1)))
    w.store b n x
    return some b
  | .cond _ c t e => do
    let (b, r) ← w.expr w.own b (i + 1) c
    let some cv ← toCond b r | do bail b i; return none
    let cv ← match w.sel.hintAt? w.key i with
      | some likely => emit b (.expect · cv likely)
      | none => pure cv
    let thn ← newBlock "then"
    let els ← newBlock "else"
    let merge ← newBlock "endif"
    terminate b (.condBr cv thn els)
    let endT ← stmts w thn (i + 1 + c.size) t k next
    if let some x := endT then terminate x (.br merge)
    let endE ← stmts w els (i + 1 + c.size + (Stmt.nodesOf t).length) e k next
    if let some x := endE then terminate x (.br merge)
    if endT.isNone ∧ endE.isNone then
      terminate merge .unreachable
      return none
    return some merge
  | .brk _ => do
    let x ← emit b (.arith · "add" true k (.int 1))
    terminate b (.ret x)
    return none
  | .cont _ => do
    terminate b (.br next)
    return none
  | .eval _ x => do
    let (b, r) ← w.expr w.own b (i + 1) x
    if r.isNone then
      bail b i
      return none
    return some b
  | _ => do
    bail b i
    return none

/-- Lower a block whose first statement is at index `i`. -/
def stmts (w : Lowering) (b : Nat) (i : Nat) (ss : List Stmt) (k : Operand) (next : Nat) :
    Build (Option Nat) :=
  match ss with
  | [] => pure (some b)
  | s :: rest => do
    match ← stmt w b i s k next with
    | none => return none
    | some b => stmts w b (i + s.size) rest k next
end

/-- A counted loop after block `pre`, starting from iteration count `k0`
and counter `i0`, running `copies` copies of the body per trip check.
Returns the block after the loop, and the loop's iteration count and
counter. -/
def loop (w : Lowering) (pre : Nat) (k0 i0 : Operand) (bodyAt : Nat) (body : List Stmt)
    (copies : Nat) : Build (Nat × Operand × Operand) := do
  let header ← newBlock "loop"
  let first ← newBlock "body"
  let after ← newBlock "done"
  terminate pre (.br header)
  let k ← emit header (.phi · [(k0, pre)])
  let iv ← emit header (.phi · [(i0, pre)])
  let left ← emit header (.arith · "sub" true (.param "trips") k)
  let c ← emit header (.icmp · "uge" left (.int copies))
  terminate header (.condBr c first after)
  let copy (st : Nat × Operand × Operand) (_ : Nat) : Build (Nat × Operand × Operand) := do
    let (cur, kk, ii) := st
    let p ← slotPtr cur w.counter
    push cur (.store ii p)
    let next ← newBlock "next"
    if let some e ← w.stmts cur bodyAt body kk next then terminate e (.br next)
    let kk ← emit next (.arith · "add" true kk (.int 1))
    let ii ← emit next (.arith · "add" true ii (.param "step"))
    return (next, kk, ii)
  let (cur, kk, ii) ← List.foldlM copy (first, k, iv) (List.range copies)
  terminate cur (.br header)
  addIncoming header k kk cur
  addIncoming header iv ii cur
  return (after, k, iv)

end Lowering

/-- The listing of loop `l` of shape `shape` under plan `sel`; a loop that
is not counted only leaves at once. Fails when a block is left without
terminator. -/
def ofLoop (l : Loop) (shape : Shape) (sel : Selection) (hash : UInt64) : Except String String :=
  let graph : Build Unit :=
    match l.head with
    | .range .. => do
      let counter := if shape.counter ≥ 0 then shape.slot shape.counter.toNat else -1
      let base : Lowering := { shape := shape, sel := sel, key := l.key, counter := counter }
      let plan : Origin := ⟨sel.loop, sel.loop == l.key⟩
      let hoist (w : Lowering) (h : Nat × Expr) : Build Lowering := do
        let (b, r) ← w.expr plan 0 h.1 h.2
        match r with
        | some (v, false) => if b = 0 then return { w with hoisted := w.hoisted ++ [(h.1, v)] } else return w
        | _ => return w
      let w ← List.foldlM hoist base sel.hoisted
      let bodyAt := 1 + (Expr.nodesOf l.head.exprs).length
      if sel.unroll > 1 then
        let (after, k, iv) ← w.loop 0 (.int 0) (.param "start") bodyAt l.body sel.unroll
        let (rest, k, _) ← w.loop after k iv bodyAt l.body 1
        terminate rest (.ret k)
      else
        let (after, k, _) ← w.loop 0 (.int 0) (.param "start") bodyAt l.body 1
        terminate after (.ret k)
    | _ => Lowering.bail 0 0
  ((graph.run {}).2).module hash

end Listing

end HotLoop
