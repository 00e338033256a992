import HotLoop.Memory.Arena
import HotLoop.Analysis.Roles
import HotLoop.Value.Arith
/-!
# HotLoop.Memory.Frame

Where variables live while a program runs.

An environment is a chain of layers, innermost first. A *scope* layer is a
plain list of bindings. A *frame* layer belongs to one execution of a loop:
the variables the loop writes or declares (its promoted variables) each get
an 8-byte slot, in the arena or, when the arena is full or preallocation is
off, in a word array of the frame itself. A slot holds a kind and the word of
a scalar; an array is kept beside the slot and leaves the word as it was.

A slot that has not been set behaves like a missing binding: reading and
assigning the name go on to the enclosing layers. Lookup stops at the first
layer that binds the name; assignment changes that binding and fails with an
undefined variable when no layer binds it; declaration always binds in the
innermost layer.
-/

namespace HotLoop

/-- Bindings of a scope, in order of first declaration. -/
abbrev Bindings := List (String × Value)

namespace Bindings

/-- The value bound to `n`. -/
def get? (b : Bindings) (n : String) : Option Value :=
  (b.find? (·.1 == n)).map (·.2)

/-- Bind `n` to `v`, replacing an existing binding in place. -/
def put (b : Bindings) (n : String) (v : Value) : Bindings :=
  if b.any (·.1 == n) then b.map (fun p => if p.1 == n then (n, v) else p) else b ++ [(n, v)]

/-- Whether `n` is bound. -/
def has (b : Bindings) (n : String) : Bool := b.any (·.1 == n)

end Bindings

/-- A promoted variable of a frame. -/
structure LoopVariable where
  name : String
  /-- Canonical index in the loop's shape. -/
  index : Nat
  slot : Nat
  /-- Arena offset of the slot, -1 for heap slots. -/
  offset : Int
  role : Role
  /-- Scoped to the loop: never copied in or written back. -/
  declared : Bool
  deriving Repr, Inhabited

/-- The storage of one loop execution. -/
structure Frame where
  shape : Shape
  vars : Array LoopVariable
  /-- Arena offset of slot 0, `none` when the slots are on the heap. -/
  base : Option Nat
  heap : Array UInt64
  kinds : Array Kind
  isSet : Array Bool
  /-- Elements of slots holding arrays. -/
  arrays : Array (List Value)
  /-- Bindings of names the shape does not know. -/
  extra : Bindings
  /-- Why an arena frame fell back to the heap. -/
  exhausted : Option Error
  mark : Nat
  depth : Nat
  live : Bool
  deriving Inhabited

namespace Frame

/-- Number of slots. -/
def numSlots (f : Frame) : Nat := f.kinds.size

/-- The raw word of a slot. -/
def word (f : Frame) (a : Arena) (slot : Nat) : UInt64 :=
  match f.base with
  | some b => a.word (b + 8 * slot)
  | none => f.heap.getD slot 0

/-- Write the raw word of a slot. -/
def putWord (f : Frame) (a : Arena) (slot : Nat) (w : UInt64) : Frame × Arena :=
  match f.base with
  | some b => (f, a.putWord (b + 8 * slot) w)
  | none => ({ f with heap := f.heap.set! slot w }, a)

/-- Whether a slot holds a value. -/
def slotSet (f : Frame) (slot : Nat) : Bool := f.isSet.getD slot false

/-- The kind stored in a slot. -/
def kind (f : Frame) (slot : Nat) : Kind := f.kinds.getD slot .nil

/-- The value in a slot, `none` when it is unset. -/
def get? (f : Frame) (a : Arena) (slot : Nat) : Option Value :=
  if f.slotSet slot then
    match f.kind slot with
    | .array => some (.array (f.arrays.getD slot []))
    | k => some (Value.ofBits k (f.word a slot))
  else none

/-- Store a value in a slot and mark it set. An array leaves the word alone. -/
def put (f : Frame) (a : Arena) (slot : Nat) (v : Value) : Frame × Arena :=
  let f := { f with isSet := f.isSet.set! slot true, kinds := f.kinds.set! slot v.kind }
  match v with
  | .array es => ({ f with arrays := f.arrays.set! slot es }, a)
  | _ => f.putWord a slot v.bits

/-- Clear a slot so that its name resolves in the enclosing layers again. -/
def unset (f : Frame) (slot : Nat) : Frame :=
  { f with isSet := f.isSet.set! slot false, kinds := f.kinds.set! slot .nil }

/-- The integer in a slot's word, whatever its kind. -/
def int (f : Frame) (a : Arena) (slot : Nat) : Int64 := (f.word a slot).toInt64

/-- Store an integer. -/
def putInt (f : Frame) (a : Arena) (slot : Nat) (n : Int64) : Frame × Arena :=
  let f := { f with isSet := f.isSet.set! slot true, kinds := f.kinds.set! slot .int }
  f.putWord a slot n.toUInt64

/-- The slot of a promoted name. -/
def slotOf? (f : Frame) (n : String) : Option Nat := f.shape.slotOf? n

end Frame

/-- A layer of an environment. -/
inductive Layer where
  | scope (b : Bindings)
  | frame (f : Frame)
  deriving Inhabited

/-- An environment: layers, innermost first. -/
abbrev Env := List Layer

namespace Env

/-- Resolve a name through the layers. -/
def lookup (a : Arena) : Env → String → Option Value
  | [], _ => none
  | .scope b :: rest, n =>
    match b.get? n with
    | some v => some v
    | none => lookup a rest n
  | .frame f :: rest, n =>
    match f.slotOf? n with
    | some s =>
      match f.get? a s with
      | some v => some v
      | none => match f.extra.get? n with
        | some v => some v
        | none => lookup a rest n
    | none => match f.extra.get? n with
      | some v => some v
      | none => lookup a rest n

/-- Update the nearest binding of a name; `none` when no layer binds it. -/
def assign (a : Arena) : Env → String → Value → Option (Env × Arena)
  | [], _, _ => none
  | .scope b :: rest, n, v =>
    if b.has n then some (.scope (b.put n v) :: rest, a)
    else (assign a rest n v).map fun (rest, a) => (.scope b :: rest, a)
  | .frame f :: rest, n, v =>
    let inSlot := match f.slotOf? n with
      | some s => if f.slotSet s then some s else none
      | none => none
    match inSlot with
    | some s => let (f, a) := f.put a s v; some (.frame f :: rest, a)
    | none =>
      if f.extra.has n then some (.frame { f with extra := f.extra.put n v } :: rest, a)
      else (assign a rest n v).map fun (rest, a) => (.frame f :: rest, a)

/-- Bind a name in the innermost layer. A frame binds a promoted name in its
slot and any other name beside its slots. -/
def declare (a : Arena) : Env → String → Value → Env × Arena
  | [], n, v => ([.scope [(n, v)]], a)
  | .scope b :: rest, n, v => (.scope (b.put n v) :: rest, a)
  | .frame f :: rest, n, v =>
    match f.slotOf? n with
    | some s => let (f, a) := f.put a s v; (.frame f :: rest, a)
    | none => (.frame { f with extra := f.extra.put n v } :: rest, a)

/-- The undefined variable error of a name. -/
def undefined (n : String) : Error := .detailed .undefined n

/-- `assign`, failing with an undefined variable. -/
def assign! (a : Arena) (env : Env) (n : String) (v : Value) : Except Error (Env × Arena) :=
  match assign a env n v with
  | some r => .ok r
  | none => .error (undefined n)

end Env

end HotLoop
