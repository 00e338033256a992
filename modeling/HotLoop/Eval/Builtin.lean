import HotLoop.Value.Arith
/-!
# HotLoop.Eval.Builtin

The functions a program can call: `abs`, `min`, `max`, `len` and `print`.
They take evaluated arguments and give a value and the text they print.

* `abs` takes one number and drops its sign (a NaN and negative zero stay as
  they are, since neither is below zero).
* `min` and `max` take at least one value and keep the first argument that
  is strictly smaller (larger) than all before it, comparing with the
  language's `<` (`>`), whose type errors they pass on.
* `len` takes one array.
* `print` writes the texts of its arguments separated by blanks, then a
  newline, and gives nil.
-/

namespace HotLoop

/-- The functions known by name. -/
inductive Builtin where
  | abs | min | max | len | print
  deriving DecidableEq, Repr

namespace Builtin

/-- The function a name calls, if any. -/
def ofName? : String → Option Builtin
  | "abs" => some abs | "min" => some min | "max" => some max
  | "len" => some len | "print" => some print
  | _ => none

/-- A wrong argument count, for functions of one argument. -/
def arityError (n : Nat) : Error :=
  .note ("expected 1 argument(s), got " ++ toString n)

/-- The best argument by `op`: the first one strictly better than every
argument before it. -/
def pick (op : Op) (best : Value) : List Value → Except Error Value
  | [] => .ok best
  | a :: rest =>
    match Value.binary op a best with
    | .error e => .error e
    | .ok better => pick op (if better matches .bool true then a else best) rest

/-- Apply a builtin: its value and the text it printed. -/
def apply : Builtin → List Value → Except Error (Value × String)
  | abs, [.int n] => .ok (.int (if n < 0 then -n else n), "")
  | abs, [.float x] => .ok (.float (if x.lt ⟨0⟩ then x.neg else x), "")
  | abs, [v] => .error (.detailed .typeMismatch ("abs(" ++ v.kind.name ++ ")"))
  | abs, args => .error (arityError args.length)
  | min, [] | max, [] => .error (.note "expected at least 1 argument")
  | min, a :: rest => (pick .lt a rest).map (·, "")
  | max, a :: rest => (pick .gt a rest).map (·, "")
  | len, [.array es] => .ok (.int (Int64.ofNat es.length), "")
  | len, [v] => .error (.detailed .typeMismatch ("len(" ++ v.kind.name ++ ")"))
  | len, args => .error (arityError args.length)
  | print, args => .ok (.nil, " ".intercalate (args.map Value.text) ++ "\n")

end Builtin

end HotLoop
