/-!
# HotLoop.Error

Errors of the loop core. An error is built from a few pieces:

* a *sentinel fault* (`Cause`) with a fixed text, such as integer division by
  zero or an undefined variable;
* a *note*, a message with no sentinel behind it;
* a *context* phrase put in front of an inner error, written `phrase: inner`;
* a *located* error, which gives an inner error a category, a source position
  and the loops it travelled out of;
* a *crash*: the program stops on a fault of its own instead of returning an
  error, with the runtime's reason.

The text of every error follows from its structure (`Error.message`), and so
do its cause (the sentinel at the bottom, `Error.cause`) and the category of
the outermost located error (`Error.category?`). Locating an error that is
already located keeps the inner one: the innermost position wins.
-/

namespace HotLoop

/-- The sentinel faults, in the order in which a cause is looked for. -/
inductive Cause where
  | divisionByZero
  | negativeShift
  | indexRange
  | typeMismatch
  | undefined
  | zeroStep
  | nestingTooDeep
  | outOfCapacity
  | badAlignment
  | unsupported
  | internal
  /-- No sentinel: the error is a plain note. -/
  | other
  deriving DecidableEq, Repr, Inhabited

namespace Cause

/-- The fixed text of a sentinel fault. -/
def text : Cause → String
  | divisionByZero => "integer division by zero"
  | negativeShift => "negative shift count"
  | indexRange => "index out of range"
  | typeMismatch => "type mismatch"
  | undefined => "undefined variable"
  | zeroStep => "loop step is zero"
  | nestingTooDeep => "loop nesting too deep"
  | outOfCapacity => "stack allocator: capacity exhausted"
  | badAlignment => "stack allocator: alignment must be a positive power of two"
  | unsupported => "jit: unsupported construct"
  | internal => "jit: internal compiler error"
  | other => ""

/-- The name of a cause in reports. -/
def name : Cause → String
  | divisionByZero => "division_by_zero"
  | negativeShift => "negative_shift"
  | indexRange => "index_range"
  | typeMismatch => "type"
  | undefined => "undefined"
  | zeroStep => "zero_step"
  | nestingTooDeep => "nesting_too_deep"
  | outOfCapacity => "out_of_capacity"
  | badAlignment => "bad_alignment"
  | unsupported => "unsupported"
  | internal => "internal"
  | other => "other"

end Cause

/-- The categories of located errors. -/
inductive Category where
  | runtime
  | allocatorExhausted
  | compilationUnsupported
  | compilationInternal
  | nestingTooDeep
  deriving DecidableEq, Repr, Inhabited

/-- The written name of a category. -/
def Category.name : Category → String
  | .runtime => "RuntimeError"
  | .allocatorExhausted => "AllocatorExhausted"
  | .compilationUnsupported => "CompilationUnsupported"
  | .compilationInternal => "CompilationInternal"
  | .nestingTooDeep => "NestingTooDeep"

/-- One loop an error propagated out of: its id and position. -/
structure LoopFrame where
  loop : String
  line : Int
  col : Int
  deriving DecidableEq, Repr, Inhabited

/-- An error; see the module documentation. -/
inductive Error where
  | fault (c : Cause)
  | note (text : String)
  | context (phrase : String) (inner : Error)
  | located (cat : Category) (inner : Error) (line col : Int) (source : String)
      (frames : List LoopFrame)
  | crash (reason : String)
  deriving Inhabited, Repr

namespace Error

/-- A sentinel fault with a detail in front: `detail: sentinel text`. -/
def detailed (c : Cause) (detail : String) : Error := context detail (fault c)

/-- `n` spaces. -/
def spaces (n : Nat) : String := String.ofList (List.replicate n ' ')

/-- The text of a located error: `Category: inner`, then the position when
the line is positive (with the source line and a caret under the column when
a source line is known), then the loops it went through. -/
def locatedText (kind : String) (inner : String) (line col : Int) (source : String)
    (frames : List LoopFrame) : String :=
  let head := kind ++ ": " ++ inner
  let place :=
    if line > 0 then
      let pos := "\n  at " ++ toString line ++ ":" ++ toString col
      if source = "" then pos
      else
        let gutter := toString line ++ " | "
        pos ++ "\n\n  " ++ gutter ++ source ++ "\n" ++ "  " ++ spaces gutter.length ++
          (if col > 0 then spaces (col - 1).toNat else "") ++ "^"
    else ""
  let stack :=
    if frames.isEmpty then ""
    else "\nLoop Stack:" ++ String.join (frames.map fun f =>
      "\n  in loop " ++ f.loop ++ " (" ++ toString f.line ++ ":" ++ toString f.col ++ ")")
  head ++ place ++ stack

/-- The text of an error. -/
def message : Error → String
  | fault c => c.text
  | note t => t
  | context p e => p ++ ": " ++ e.message
  | located cat e line col src frames => locatedText cat.name e.message line col src frames
  | crash r => "runtime error: " ++ r

/-- The sentinel at the bottom of an error, or `other`. -/
def cause : Error → Cause
  | fault c => c
  | note _ => .other
  | context _ e => e.cause
  | located _ e _ _ _ _ => e.cause
  | crash _ => .other

/-- Whether the error is a crash, under any context phrases. -/
def isCrash : Error → Bool
  | crash _ => true
  | context _ e => e.isCrash
  | _ => false

/-- The category of the outermost located error, if any. -/
def category? : Error → Option Category
  | located cat .. => some cat
  | context _ e => e.category?
  | _ => none

/-- The outermost located error inside an error, if any. -/
def located? : Error → Option Error
  | e@(located ..) => some e
  | context _ e => e.located?
  | _ => none

/-- Give an error a category and a position. An error that already carries a
position gives back that located error itself, so the innermost position
wins and context phrases around it fall away. -/
def locate (cat : Category) (line col : Int) (e : Error) : Error :=
  match e.located? with
  | some l => l
  | none => located cat e line col "" []

/-- Record that an error left a loop. Only runtime errors keep a loop stack;
the frame goes to the outermost located error. -/
def throughLoop (frame : LoopFrame) : Error → Error
  | located .runtime e line col src frames => located .runtime e line col src (frames ++ [frame])
  | context p e => context p (throughLoop frame e)
  | e => e

/-- The category name of an error, or its cause name when it has no
category: what a report calls the kind of the error. -/
def kindName (e : Error) : String :=
  match e.category? with
  | some c => c.name
  | none => if e.cause = .other then "Error" else e.cause.name

end Error

end HotLoop
