/-!
# HotLoop.Memory.Arena

A stack arena: a byte buffer handed out from the bottom up and given back in
the reverse order.

* `allocate size align` rounds the top up to `align` (a positive power of
  two), hands out `size` zeroed bytes there and moves the top past them.
  When they do not fit, the buffer doubles until they do, but never past its
  ceiling; a request beyond the ceiling fails.
* A request whose end, as a signed 64-bit word, lies before its aligned start
  (a negative size, or one that wraps) hands nothing out, but the buffer
  still grows toward an end past its size first.
* `checkpoint` names the current top and `release` goes back to a named top;
  going back to a top at or above the current one does nothing, so an outer
  frame may release after an inner one without harm.
* Words are read and written little-endian at any offset inside the buffer;
  an offset outside it is a fault of the caller (`none`).
-/

namespace HotLoop

/-- Default size of a new arena: 64 KiB. -/
def Arena.defaultSize : Nat := 65536

/-- Default ceiling of arena growth: 16 MiB. -/
def Arena.defaultCeiling : Nat := 16777216

/-- Why an allocation fails. -/
inductive ArenaFault where
  | badAlignment
  | outOfCapacity (need ceiling : Nat)
  deriving DecidableEq, Repr

/-- A stack arena with its usage counters. -/
structure Arena where
  bytes : ByteArray
  top : Nat
  ceiling : Nat
  peak : Nat := 0
  allocations : Nat := 0
  releases : Nat := 0
  growths : Nat := 0

namespace Arena

/-- A fresh arena of `size` bytes (the default when not positive) that may
grow up to `ceiling` (at least its size). -/
def new (size ceiling : Int) : Arena :=
  let size := if size ≤ 0 then defaultSize else size.toNat
  let ceiling := if ceiling < size then size else ceiling.toNat
  { bytes := ByteArray.mk (Array.replicate size 0), top := 0, ceiling := ceiling }

/-- Current size of the buffer. -/
def size (a : Arena) : Nat := a.bytes.size

/-- `n` rounded up to a multiple of the power of two `align`. -/
def alignUp (n align : Nat) : Nat := (n + align - 1) / align * align

/-- Whether `n` is a positive power of two. -/
def isPow2 (n : Int) : Bool := n > 0 && (n.toNat &&& (n.toNat - 1)) == 0

/-- The size the buffer grows to so that `need` bytes fit: doubled until
large enough, capped at the ceiling. -/
def grownSize (size need ceiling : Nat) : Nat :=
  let rec go (s : Nat) (fuel : Nat) : Nat :=
    match fuel with
    | 0 => s
    | fuel + 1 => if s < need then go (2 * s) fuel else s
  min (go size 64) ceiling

/-- Zero the bytes from `off` to `stop`. -/
def zeroRange (b : ByteArray) (off stop : Nat) : ByteArray :=
  (List.range (stop - off)).foldl (fun b k => b.set! (off + k) 0) b

/-- Make room for the bytes below `stop`: a buffer too small doubles until
they fit, capped at the ceiling; room past the ceiling cannot be made. -/
def makeRoom (a : Arena) (stop : Nat) : Except ArenaFault Arena :=
  if stop > a.size then
    if stop > a.ceiling then .error (.outOfCapacity stop a.ceiling)
    else
      let n := grownSize a.size stop a.ceiling
      .ok { a with bytes := a.bytes ++ ByteArray.mk (Array.replicate (n - a.size) 0), growths := a.growths + 1 }
  else .ok a

/-- Where a request of `size` bytes aligned to `align` ends, as a signed
64-bit word: a size past the largest word wraps around. -/
def requestEnd (a : Arena) (size align : Int) : Int :=
  (Int64.ofInt (alignUp a.top align.toNat + size)).toInt

/-- Reserve `size` zeroed bytes aligned to `align`; the offset of the first. -/
def allocate (a : Arena) (size align : Int) : Except ArenaFault (Nat × Arena) :=
  if !isPow2 align then .error .badAlignment
  else
    let off := alignUp a.top align.toNat
    let stop := off + size.toNat
    match a.makeRoom stop with
    | .error e => .error e
    | .ok a =>
      let bytes := zeroRange a.bytes off stop
      let a' : Arena :=
        { a with
          bytes := bytes
          top := stop
          allocations := a.allocations + 1
          peak := max a.peak stop }
      .ok (off, a')

/-- The current top. -/
def checkpoint (a : Arena) : Nat := a.top

/-- Go back to a top below the current one. -/
def release (a : Arena) (mark : Int) : Arena :=
  if mark ≥ a.top ∨ mark < 0 then a
  else { a with top := mark.toNat, releases := a.releases + 1 }

/-- The little-endian word at `off`, if the 8 bytes are inside the buffer. -/
def word? (a : Arena) (off : Nat) : Option UInt64 :=
  if off + 8 ≤ a.size then
    some ((List.range 8).foldr (fun k w => (w <<< 8) ||| (a.bytes.get! (off + k)).toUInt64) 0)
  else none

/-- Write a little-endian word at `off`, if the 8 bytes are inside. -/
def putWord? (a : Arena) (off : Nat) (w : UInt64) : Option Arena :=
  if off + 8 ≤ a.size then
    let bytes := (List.range 8).foldl
      (fun b k => b.set! (off + k) (w >>> (8 * k).toUInt64).toUInt8) a.bytes
    some { a with bytes := bytes }
  else none

/-- The byte at `off`, if inside. -/
def byte? (a : Arena) (off : Nat) : Option UInt8 :=
  if off < a.size then some (a.bytes.get! off) else none

/-- Write one byte at `off`, if inside. -/
def putByte? (a : Arena) (off : Nat) (b : UInt8) : Option Arena :=
  if off < a.size then some { a with bytes := a.bytes.set! off b } else none

/-- The word at `off`, 0 outside the buffer; callers keep offsets inside. -/
def word (a : Arena) (off : Nat) : UInt64 := (a.word? off).getD 0

/-- Write the word at `off`; outside the buffer nothing changes. -/
def putWord (a : Arena) (off : Nat) (w : UInt64) : Arena := (a.putWord? off w).getD a

end Arena

end HotLoop
