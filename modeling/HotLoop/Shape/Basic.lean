import HotLoop.Syntax.Walk
import HotLoop.Shape.Hash
/-!
# HotLoop.Shape.Basic

The canonical shape of a loop: its variables numbered by first appearance,
what the loop does with each, and a structural hash.

The loop is written out as bytes in pre-order, each node as a tag byte and
its contents; a variable is written as its canonical index, never as its
name, and positions are not written at all. So two loops that differ only in
variable names and positions have the same bytes, the same hash and the same
shape apart from `names`. The loop variable of a counted or collection loop
is named first and is the loop's *counter*.

A variable is *promoted* to a frame slot when the loop writes or declares it;
variables that are only read are *captured* from the enclosing environment.
Slots are numbered in canonical order.
-/

namespace HotLoop

/-- Node tags of the canonical encoding. -/
inductive Tag where
  | intLit | floatLit | boolLit | arrayLit | ident | binary | unary | index | call
  | declare | assign | compound | step | cond | brk | cont | ret | eval
  | range | whileLoop | each | absent

/-- The byte of a tag, 1 to 22. -/
def Tag.byte : Tag → UInt8
  | intLit => 1 | floatLit => 2 | boolLit => 3 | arrayLit => 4 | ident => 5
  | binary => 6 | unary => 7 | index => 8 | call => 9 | declare => 10
  | assign => 11 | compound => 12 | step => 13 | cond => 14 | brk => 15
  | cont => 16 | ret => 17 | eval => 18 | range => 19 | whileLoop => 20
  | each => 21 | absent => 22

/-- Append the unsigned LEB128 form of `n` (seven bits a byte, low first,
high bit set on all bytes but the last). -/
def pushVarint (b : ByteArray) (n : Nat) : ByteArray :=
  if h : n < 128 then b.push n.toUInt8
  else pushVarint (b.push ((n % 128) + 128).toUInt8) (n / 128)
termination_by n
decreasing_by omega

/-- Append the 8 little-endian bytes of a word. -/
def pushWord (b : ByteArray) (w : UInt64) : ByteArray :=
  (List.range 8).foldl (fun b k => b.push (w >>> (8 * k).toUInt64).toUInt8) b

/-- The shape of a loop. -/
structure Shape where
  kind : LoopKind
  hash : UInt64
  /-- Variable names in canonical order. -/
  names : Array String
  /-- Canonical index of the loop variable, or -1. -/
  counter : Int
  declared : Array Bool
  assigned : Array Bool
  read : Array Bool
  /-- Canonical index to slot, -1 for captured variables. -/
  slots : Array Int
  /-- Slot to canonical index. -/
  promoted : Array Nat
  deriving Inhabited, Repr

/-- The state of the encoder. -/
structure Canon where
  names : Array String := #[]
  declared : Array Bool := #[]
  assigned : Array Bool := #[]
  read : Array Bool := #[]
  counter : Int := -1
  bytes : ByteArray := .empty

namespace Canon

/-- The canonical index of `n`, numbering it if it is new. -/
def name (c : Canon) (n : String) : Nat × Canon :=
  match c.names.idxOf? n with
  | some i => (i, c)
  | none =>
    let c' : Canon :=
      { c with
        names := c.names.push n
        declared := c.declared.push false
        assigned := c.assigned.push false
        read := c.read.push false }
    (c.names.size, c')

def tag (c : Canon) (t : Tag) : Canon := { c with bytes := c.bytes.push t.byte }
def byte (c : Canon) (b : UInt8) : Canon := { c with bytes := c.bytes.push b }
def varint (c : Canon) (n : Nat) : Canon := { c with bytes := pushVarint c.bytes n }
def word (c : Canon) (w : UInt64) : Canon := { c with bytes := pushWord c.bytes w }

/-- Mark a variable read. -/
def markRead (c : Canon) (n : String) : Canon :=
  let (i, c) := c.name n
  { c with read := c.read.set! i true }

/-- A write of `n`: mark it assigned (and declared), then write its index. -/
def write (c : Canon) (n : String) (declare : Bool) : Canon :=
  let (i, c) := c.name n
  let c := { c with assigned := c.assigned.set! i true }
  let c := if declare then { c with declared := c.declared.set! i true } else c
  c.varint i

/-- Number a loop variable, marking it declared and assigned. -/
def loopVar (c : Canon) (n : String) : Nat × Canon :=
  let (i, c) := c.name n
  (i, { c with declared := c.declared.set! i true, assigned := c.assigned.set! i true })

mutual
/-- Encode an expression; an absent one is the tag `absent`. -/
def expr (c : Canon) : Expr → Canon
  | .int _ n => (c.tag .intLit).word n.toUInt64
  | .float _ x => (c.tag .floatLit).word x.bits
  | .bool _ b => (c.tag .boolLit).byte (if b then 1 else 0)
  | .array _ es => exprs ((c.tag .arrayLit).varint es.length) es
  | .ident _ n =>
    let c := (c.tag .ident).markRead n
    let (i, c) := c.name n
    c.varint i
  | .binary _ op x y => expr (expr ((c.tag .binary).byte op.code) x) y
  | .unary _ op x => expr ((c.tag .unary).byte op.code) x
  | .index _ x i => expr (expr (c.tag .index) x) i
  | .call _ f args =>
    let c := ((c.tag .call).varint f.utf8ByteSize)
    let c := { c with bytes := c.bytes ++ f.toUTF8 }
    exprs (c.varint args.length) args

/-- Encode expressions one after the other. -/
def exprs (c : Canon) : List Expr → Canon
  | [] => c
  | e :: es => exprs (expr c e) es
end

/-- Encode an optional expression. -/
def exprOpt (c : Canon) : Option Expr → Canon
  | none => c.tag .absent
  | some e => c.expr e

mutual
/-- Encode a statement. -/
def stmt (c : Canon) : Stmt → Canon
  | .declare _ n v => ((c.tag .declare).expr v).write n true
  | .assign _ n v => ((c.tag .assign).expr v).write n false
  | .compound _ n op v => ((((c.tag .compound).byte op.code).markRead n).expr v).write n false
  | .step _ n down => (((c.tag .step).byte (if down then 1 else 0)).markRead n).write n false
  | .cond _ cnd t e => block (block ((c.tag .cond).expr cnd) t) e
  | .brk _ => c.tag .brk
  | .cont _ => c.tag .cont
  | .ret _ v => (c.tag .ret).exprOpt v
  | .eval _ x => (c.tag .eval).expr x
  | .loop _ _ (.range v a b s) body =>
    let (i, c) := c.loopVar v
    block ((((c.tag .range).varint i).expr a |>.expr b).exprOpt s) body
  | .loop _ _ (.cond cnd) body => block ((c.tag .whileLoop).expr cnd) body
  | .loop _ _ (.each v coll) body =>
    let (i, c) := c.loopVar v
    block (((c.tag .each).varint i).expr coll) body

/-- Encode a block: its length, then each statement. The first statement is
taken apart here, so that the encoding recurses on the syntax alone. -/
def block (c : Canon) : List Stmt → Canon
  | [] => c.varint 0
  | s :: ss => stmts (stmt (c.varint (ss.length + 1)) s) ss

/-- Encode statements one after the other. -/
def stmts (c : Canon) : List Stmt → Canon
  | [] => c
  | s :: ss => stmts (stmt c s) ss
end

/-- A block is its length, then its statements. -/
theorem block_eq (c : Canon) (ss : List Stmt) : block c ss = stmts (c.varint ss.length) ss := by
  cases ss <;> rfl

end Canon

/-- The encoder's state after a whole loop. The loop is encoded like a nested
one, except that the variable of a counted or collection loop, named first,
is the counter. -/
def Loop.canon (l : Loop) : Canon :=
  let c0 : Canon := {}
  let c0 := match l.head with
    | .cond _ => c0
    | .range v .. | .each v _ => { (c0.loopVar v).2 with counter := 0 }
  -- the loop variable is already numbered, so encoding the statement keeps it at 0
  c0.stmt l.toStmt

/-- The shape of a loop, read off its encoding. -/
def Loop.shape (l : Loop) : Shape :=
  let c := l.canon
  let n := c.names.size
  let promotedIdx := (List.range n).filter fun i => c.assigned[i]! || c.declared[i]!
  let slots := (List.range n).map fun i =>
    match promotedIdx.idxOf? i with
    | some s => (s : Int)
    | none => -1
  { kind := l.kind, hash := XXHash.hash c.bytes, names := c.names, counter := c.counter,
    declared := c.declared, assigned := c.assigned, read := c.read,
    slots := slots.toArray, promoted := promotedIdx.toArray }

namespace Shape

/-- The canonical index of a name. -/
def index? (s : Shape) (n : String) : Option Nat := s.names.idxOf? n

/-- The slot of canonical variable `i`, or -1. -/
def slot (s : Shape) (i : Nat) : Int := s.slots.getD i (-1)

/-- The slot of a name, when it is promoted. -/
def slotOf? (s : Shape) (n : String) : Option Nat :=
  match s.index? n with
  | some i => let sl := s.slot i; if sl ≥ 0 then some sl.toNat else none
  | none => none

/-- Number of slots a frame of this shape needs. -/
def numSlots (s : Shape) : Nat := s.promoted.size

/-- Canonical indices of the variables the loop only reads. -/
def captured (s : Shape) : List Nat :=
  (List.range s.names.size).filter fun i => s.slot i < 0

end Shape

/-- 16 lowercase hex digits of a word. -/
def hex16 (w : UInt64) : String :=
  let s := String.ofList (Nat.toDigits 16 w.toNat)
  String.ofList (List.replicate (16 - s.length) '0') ++ s

/-- The profiling identity of a loop: `L<line>:<col>` when its position is
known, else `H` and the 16 hex digits of its hash. -/
def Loop.id (l : Loop) : String :=
  if l.pos.known then "L" ++ l.pos.text else "H" ++ hex16 l.shape.hash

end HotLoop
