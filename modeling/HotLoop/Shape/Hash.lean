/-!
# HotLoop.Shape.Hash

The 64-bit xxHash of a byte string (seed 0), the structural hash of loop
shapes. The input is consumed in 32-byte stripes by four accumulators, then
in 8-, 4- and 1-byte pieces, and the result is mixed by a final avalanche.
All arithmetic is on `UInt64`, which wraps as the algorithm requires.
-/

namespace HotLoop.XXHash

def p1 : UInt64 := 0x9E3779B185EBCA87
def p2 : UInt64 := 0xC2B2AE3D27D4EB4F
def p3 : UInt64 := 0x165667B19E3779F9
def p4 : UInt64 := 0x85EBCA77C2B2AE63
def p5 : UInt64 := 0x27D4EB2F165667C5

/-- Rotate left. -/
def rotl (x : UInt64) (r : UInt64) : UInt64 := (x <<< r) ||| (x >>> (64 - r))

/-- Little-endian word of `n` bytes starting at `i`. -/
def readLE (b : ByteArray) (i n : Nat) : UInt64 :=
  (List.range n).foldr (fun k acc => (acc <<< 8) ||| (b.get! (i + k)).toUInt64) 0

/-- One accumulator step on an 8-byte lane. -/
def round (acc lane : UInt64) : UInt64 := rotl (acc + lane * p2) 31 * p1

/-- Fold an accumulator into the hash after the stripes. -/
def mergeRound (h v : UInt64) : UInt64 := (h ^^^ round 0 v) * p1 + p4

/-- Final mixing. -/
def avalanche (h : UInt64) : UInt64 :=
  let h := h ^^^ (h >>> 33)
  let h := h * p2
  let h := h ^^^ (h >>> 29)
  let h := h * p3
  h ^^^ (h >>> 32)

/-- The four accumulators after the 32-byte stripes of `b`. -/
def stripes (b : ByteArray) : UInt64 × UInt64 × UInt64 × UInt64 :=
  (List.range (b.size / 32)).foldl (fun (v1, v2, v3, v4) k =>
    let i := 32 * k
    (round v1 (readLE b i 8), round v2 (readLE b (i + 8) 8),
     round v3 (readLE b (i + 16) 8), round v4 (readLE b (i + 24) 8)))
    (p1 + p2, p2, 0, 0 - p1)

/-- The hash of the bytes after the stripes, from offset `i` on. -/
def tail (b : ByteArray) (i : Nat) (h : UInt64) : UInt64 :=
  let n8 := (b.size - i) / 8
  let h := (List.range n8).foldl (fun h k =>
    rotl (h ^^^ round 0 (readLE b (i + 8 * k) 8)) 27 * p1 + p4) h
  let i := i + 8 * n8
  let (h, i) := if b.size - i ≥ 4 then
      (rotl (h ^^^ readLE b i 4 * p1) 23 * p2 + p3, i + 4)
    else (h, i)
  (List.range (b.size - i)).foldl (fun h k =>
    rotl (h ^^^ (b.get! (i + k)).toUInt64 * p5) 11 * p1) h

/-- xxHash64 of `b` with seed 0. -/
def hash (b : ByteArray) : UInt64 :=
  let h :=
    if b.size ≥ 32 then
      let (v1, v2, v3, v4) := stripes b
      let h := rotl v1 1 + rotl v2 7 + rotl v3 12 + rotl v4 18
      mergeRound (mergeRound (mergeRound (mergeRound h v1) v2) v3) v4
    else p5
  let h := h + b.size.toUInt64
  avalanche (tail b (32 * (b.size / 32)) h)

end HotLoop.XXHash
