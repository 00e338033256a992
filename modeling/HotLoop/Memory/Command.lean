import HotLoop.Memory.Table
/-!
# HotLoop.Memory.Command

Loop memory driven one command at a time: the stack arena and the frame
table each take a command and answer with a reply, and a script is a list of
commands run in order on one state.

A command that names a frame which does not exist is refused and leaves the
state alone. A slot past the end of its frame, and an arena offset whose
bytes are not all inside the buffer, are out of range: the access is refused
the same way, and the reply says so. An allocation whose range ends before
it starts is out of range too, after the buffer has grown toward its end.
-/

namespace HotLoop

namespace Arena

/-- What can be asked of an arena. Offsets are bytes from the start of the
buffer; a negative offset is out of range. -/
inductive Command where
  | alloc (size align : Int)
  | checkpoint
  | release (mark : Int)
  | stats
  | putInt (off : Int) (n : Int64)
  | putFloat (off : Int) (x : Double)
  | putWord (off : Int) (w : UInt64)
  | putBool (off : Int) (b : Bool)
  | readInt (off : Int)
  | readFloat (off : Int)
  | readWord (off : Int)
  | readBool (off : Int)

/-- The answer to an arena command. -/
inductive Reply where
  | offset (n : Nat)
  | fault (f : ArenaFault)
  | mark (n : Nat)
  | used (n : Nat)
  | stats (a : Arena)
  | ok
  | outOfRange
  | int (n : Int64)
  | float (x : Double)
  | word (w : UInt64)
  | bool (b : Bool)

/-- Write a word at an offset, or refuse one out of range. -/
def store (a : Arena) (off : Int) (w : UInt64) : Reply × Arena :=
  match (if off < 0 then none else a.putWord? off.toNat w) with
  | some a => (.ok, a)
  | none => (.outOfRange, a)

/-- Read the word at an offset and answer with `f` of it. -/
def load (a : Arena) (off : Int) (f : UInt64 → Reply) : Reply × Arena :=
  match (if off < 0 then none else a.word? off.toNat) with
  | some w => (f w, a)
  | none => (.outOfRange, a)

/-- Carry out one command. -/
def step (a : Arena) : Command → Reply × Arena
  | .alloc size align =>
    let stop := a.requestEnd size align
    if isPow2 align ∧ stop < alignUp a.top align.toNat then
      match a.makeRoom stop.toNat with
      | .ok a => (.outOfRange, a)
      | .error f => (.fault f, a)
    else
      match a.allocate size align with
      | .ok (off, a) => (.offset off, a)
      | .error f => (.fault f, a)
  | .checkpoint => (.mark a.checkpoint, a)
  | .release m => let a := a.release m; (.used a.top, a)
  | .stats => (.stats a, a)
  | .putInt off n => a.store off n.toUInt64
  | .putFloat off x => a.store off x.bits
  | .putWord off w => a.store off w
  | .putBool off b =>
    match (if off < 0 then none else a.putByte? off.toNat (if b then 1 else 0)) with
    | some a => (.ok, a)
    | none => (.outOfRange, a)
  | .readInt off => a.load off fun w => .int w.toInt64
  | .readFloat off => a.load off fun w => .float (Double.mk w)
  | .readWord off => a.load off .word
  | .readBool off =>
    match (if off < 0 then none else a.byte? off.toNat) with
    | some b => (.bool (b != 0), a)
    | none => (.outOfRange, a)

end Arena

namespace FrameTable

/-- What can be asked of a frame table. Frames are named by number, in
order of creation. -/
inductive Command where
  | enter (l : Loop) (parent : Option Nat)
  | exit (frame : Nat)
  | reset
  | stats
  | show (frame : Nat)
  | global (name : String)
  | get (frame slot : Nat)
  | int (frame slot : Nat)
  | unset (frame slot : Nat)
  | put (frame slot : Nat) (v : Value)
  | putInt (frame slot : Nat) (n : Int64)
  | lookup (frame : Nat) (name : String)
  | assign (frame : Nat) (name : String) (v : Value)
  | declare (frame : Nat) (name : String) (v : Value)

/-- The answer to a frame-table command. -/
inductive Reply where
  | entered (n : Nat) (fr : Frame)
  | failed (e : Error)
  | ok
  | depth (d : Nat)
  | stats (m : Manager)
  | frame (fr : Frame)
  | found (v : Option Value)
  | slot (v : Option Value) (k : Kind)
  | int (n : Int64)
  /-- The command named a frame that does not exist. -/
  | noFrame (n : Nat)
  /-- The command named a slot past the end of its frame. -/
  | noSlot

/-- Run `f` on frame `n`, or refuse a frame that does not exist. -/
def withFrame (t : FrameTable) (n : Nat) (f : Frame → Reply × FrameTable) : Reply × FrameTable :=
  match t.frames[n]? with
  | some fr => f fr
  | none => (.noFrame n, t)

/-- Run `f` on slot `k` of frame `n`, or refuse. -/
def withSlot (t : FrameTable) (n k : Nat) (f : Frame → Reply × FrameTable) : Reply × FrameTable :=
  t.withFrame n fun fr => if k < fr.numSlots then f fr else (.noSlot, t)

/-- Store frame `n` and the arena after a write into it. -/
def update (t : FrameTable) (n : Nat) (r : Frame × Arena) : FrameTable :=
  { t with frames := t.frames.set! n r.1, manager := { t.manager with arena := r.2 } }

/-- Carry out one command. -/
def step (t : FrameTable) : Command → Reply × FrameTable
  | .enter l parent =>
    let go := fun (_ : Unit) =>
      match t.enter l parent with
      | .ok (n, t) => (.entered n (t.frames[n]?.getD default), t)
      | .error e => (.failed e, t)
    match parent with
    | some p => t.withFrame p fun _ => go ()
    | none => go ()
  | .exit n => t.withFrame n fun _ =>
    match t.exit n with
    | (t, some e) => (.failed e, t)
    | (t, none) => (.depth t.manager.depth, t)
  | .reset => let t := t.reset; (.depth t.manager.depth, t)
  | .stats => (.stats t.manager, t)
  | .show n => t.withFrame n fun fr => (.frame fr, t)
  | .global name => (.found (t.globals.get? name), t)
  | .get n k => t.withSlot n k fun fr => (.slot (fr.get? t.manager.arena k) (fr.kind k), t)
  | .int n k => t.withSlot n k fun fr => (.int (fr.int t.manager.arena k), t)
  | .unset n k => t.withSlot n k fun fr => (.ok, { t with frames := t.frames.set! n (fr.unset k) })
  | .put n k v => t.withSlot n k fun fr => (.ok, t.update n (fr.put t.manager.arena k v))
  | .putInt n k v => t.withSlot n k fun fr => (.ok, t.update n (fr.putInt t.manager.arena k v))
  | .lookup n name => t.withFrame n fun _ => (.found ((t.env (some n)).lookup t.manager.arena name), t)
  | .assign n name v => t.withFrame n fun _ =>
    let (r, t) := t.within (some n) fun env a =>
      match env.assign a name v with
      | some (env, a) => (true, env, a)
      | none => (false, env, a)
    (if r then .ok else .failed (Env.undefined name), t)
  | .declare n name v => t.withFrame n fun _ =>
    let ((), t) := t.within (some n) fun env a =>
      let (env, a) := env.declare a name v
      ((), env, a)
    (.ok, t)

end FrameTable

end HotLoop
