import HotLoop.Compile.Listing
/-!
# HotLoop.Compile.Artifact

A compiled loop: its code, the frame layout it assumes, its strategies and
fingerprint, how deep loops nest inside its body, and its LLVM IR listing.
Artifacts hold no name or position of the loop they were built from, so
every loop with the same fingerprint may run the same artifact.

Compilation fails with a located error at the loop: a
`CompilationUnsupported` error for constructs the compiler refuses, a
`CompilationInternal` error for a defect (a name missing from the shape, a
listing that cannot be printed).
-/

namespace HotLoop

/-- One slot of the layout a compiled loop assumes. -/
structure LayoutSlot where
  /-- Canonical index of the variable. -/
  index : Nat
  slot : Nat
  /-- Byte offset from the frame's base. -/
  offset : Nat
  deriving Repr, Inhabited

/-- A compiled loop. -/
structure Artifact where
  fingerprint : Fingerprint
  layout : List LayoutSlot
  strategies : StrategySet
  /-- Loops nested inside the body. -/
  nestDepth : Nat
  /-- Bytes of the listing. -/
  size : Nat
  listing : String
  entry : Entry
  deriving Inhabited

/-- The layout of a shape: every promoted variable at its slot, eight bytes
apart. -/
def Shape.layout (s : Shape) : List LayoutSlot :=
  s.promoted.toList.zipIdx.map fun (i, slot) => ⟨i, slot, slot * 8⟩

/-- Locate a compilation error at the loop, as unsupported or internal. -/
def Loop.compileError (l : Loop) (e : Error) : Error :=
  let cat := if e.cause = .unsupported then Category.compilationUnsupported else .compilationInternal
  e.locate cat l.pos.line l.pos.col

/-- Compile loop `l` of shape `shape` with plan `sel` under fingerprint
`fp`; `withListing` asks for the IR listing. -/
def Loop.compile (l : Loop) (shape : Shape) (sel : Selection) (fp : Fingerprint)
    (withListing : Bool) : Except Error Artifact :=
  match l.compileEntry shape sel with
  | .error e => .error (l.compileError e)
  | .ok entry =>
    let listing : Except Error String :=
      if withListing then
        match Listing.ofLoop l shape sel fp.hash with
        | .ok t => .ok t
        | .error m => .error (l.compileError (.detailed .internal m))
      else .ok ""
    listing.map fun text =>
      { fingerprint := fp, layout := shape.layout, strategies := sel.set,
        nestDepth := nestDepth l.body, size := text.utf8ByteSize, listing := text, entry := entry }

end HotLoop
