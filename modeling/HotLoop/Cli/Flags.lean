import HotLoop.Text.Quote
/-!
# HotLoop.Cli.Flags

Command-line flags in the single-dash style. A flag is written `-name` or
`--name`, with its value either after `=` in the same argument or as the next
argument; a switch takes no next argument, only an optional `=value`.
Parsing stops at the first argument that does not start with `-` (the lone
`-` included) and after `--`, which is dropped; the arguments left over are
the positional ones.

An integer value has an optional sign, a base chosen by its prefix (`0x`,
`0o`, `0b`, or a leading `0` for octal, decimal otherwise) and may have
underscores between its digits; it must lie in the signed 64-bit range. A
switch value is one of `1 t T TRUE true True` or `0 f F FALSE false False`.

The first problem ends parsing; `-h` and `-help` ask for help unless a flag
of that name exists.
-/

namespace HotLoop.Cli

/-- What a flag takes. -/
inductive FlagKind where
  | text
  | int
  /-- A switch: on by itself, or set by `=value`. -/
  | switch
  deriving DecidableEq, Repr

/-- A value given to a flag. -/
inductive FlagValue where
  | text (s : String)
  | int (n : Int)
  | switch (b : Bool)
  deriving DecidableEq, Repr

/-- Why a number was refused. -/
inductive NumberFault where
  | malformed
  | outOfRange
  deriving DecidableEq, Repr

/-- The wording of a refused number. -/
def NumberFault.text : NumberFault → String
  | .malformed => "parse error"
  | .outOfRange => "value out of range"

/-- Why parsing stopped. -/
inductive FlagError where
  | help
  | malformedFlag (arg : String)
  | undefined (name : String)
  | needsValue (name : String)
  | badSwitch (value name : String)
  | badValue (value name : String) (fault : NumberFault)
  deriving DecidableEq, Repr

/-- The text of a parsing failure. -/
def FlagError.message : FlagError → String
  | .help => "flag: help requested"
  | .malformedFlag a => "bad flag syntax: " ++ a
  | .undefined n => "flag provided but not defined: -" ++ n
  | .needsValue n => "flag needs an argument: -" ++ n
  | .badSwitch v n => "invalid boolean value " ++ Text.quote v ++ " for -" ++ n ++ ": parse error"
  | .badValue v n f => "invalid value " ++ Text.quote v ++ " for flag -" ++ n ++ ": " ++ f.text

/-! ## Numbers -/

/-- The value of an ASCII digit or letter, letters counting from 10. -/
def digitValue (c : Char) : Option Nat :=
  if c.isDigit then some (c.toNat - 48)
  else if c.isAlpha then some (c.toLower.toNat - 87)
  else none

/-- Whether every underscore of a number stands between two digits, a base
prefix counting as a digit. -/
def underscoresFit (cs : List Char) : Bool :=
  let cs := match cs with
    | '-' :: r | '+' :: r => r
    | r => r
  let (hex, saw, body) := match cs with
    | '0' :: c :: r =>
      if c.toLower = 'b' ∨ c.toLower = 'o' ∨ c.toLower = 'x' then (c.toLower == 'x', '0', r)
      else (false, '^', cs)
    | _ => (false, '^', cs)
  let step (st : Option Char) (c : Char) : Option Char := st.bind fun saw =>
    if c.isDigit || (hex && c.isAlpha && c.toLower ≤ 'f') then some '0'
    else if c = '_' then (if saw = '0' then some '_' else none)
    else if saw = '_' then none
    else some '!'
  match body.foldl step (some saw) with
  | some s => s ≠ '_'
  | none => false

/-- The digits of a number in `base`, read left to right; underscores are
skipped. The first digit that does not belong to the base, or that takes the
value past `2^64 - 1`, decides the failure. -/
def digitsBelow (base : Nat) : List Char → Nat → Except NumberFault Nat
  | [], n => .ok n
  | '_' :: r, n => digitsBelow base r n
  | c :: r, n =>
    match digitValue c with
    | some d =>
      if d ≥ base then .error .malformed
      else if n * base + d ≥ Nat.pow 2 64 then .error .outOfRange
      else digitsBelow base r (n * base + d)
    | none => .error .malformed

/-- An unsigned number below `2^64` with its base chosen by its prefix. -/
def readUnsigned (cs : List Char) : Except NumberFault Nat := do
  if cs.isEmpty then throw .malformed
  let (base, digits) := match cs with
    | '0' :: c :: r@(_ :: _) =>
      if c.toLower = 'b' then (2, r)
      else if c.toLower = 'o' then (8, r)
      else if c.toLower = 'x' then (16, r)
      else (8, c :: r)
    | '0' :: r => (8, r)
    | r => (10, r)
  let n ← digitsBelow base digits 0
  if cs.contains '_' && !underscoresFit cs then throw .malformed
  return n

/-- A signed 64-bit integer, as an integer flag reads its value. -/
def readInt (s : String) : Except NumberFault Int :=
  match s.toList with
  | '-' :: r => do
    let n ← readUnsigned r
    if n > Nat.pow 2 63 then throw .outOfRange
    return -(n : Int)
  | '+' :: r | r => do
    let n ← readUnsigned r
    if n ≥ Nat.pow 2 63 then throw .outOfRange
    return n

/-- A switch value. -/
def readSwitch : String → Option Bool
  | "1" | "t" | "T" | "TRUE" | "true" | "True" => some true
  | "0" | "f" | "F" | "FALSE" | "false" | "False" => some false
  | _ => none

/-! ## Arguments -/

/-- How an argument reads. -/
inductive ArgForm where
  | positional
  /-- `--`, which ends the flags. -/
  | terminator
  | malformed
  | flag (name : String) (value : Option String)
  deriving DecidableEq, Repr

/-- Read one argument: the name after one or two dashes, up to the first
`=`, and the value after it. A name may not be empty or start with `-` or
`=`. -/
def ArgForm.of (a : String) : ArgForm :=
  match a.toList with
  | '-' :: c :: r =>
    if c = '-' ∧ r.isEmpty then .terminator
    else
      match (if c = '-' then r else c :: r) with
      | [] | '-' :: _ | '=' :: _ => .malformed
      | n :: more =>
        let (name, rest) := more.span (· ≠ '=')
        .flag (String.ofList (n :: name)) (if rest.isEmpty then none else some (String.ofList rest.tail))
  | _ => .positional

/-- The value a flag of kind `k` takes from `v`. -/
def FlagKind.read (k : FlagKind) (name v : String) : Except FlagError FlagValue :=
  match k with
  | .text => .ok (.text v)
  | .int => match readInt v with
    | .ok n => .ok (.int n)
    | .error f => .error (.badValue v name f)
  | .switch => match readSwitch v with
    | some b => .ok (.switch b)
    | none => .error (.badSwitch v name)

/-- What parsing found: the flags set, in order, and the positional
arguments. -/
structure Parsed where
  set : List (String × FlagValue) := []
  rest : List String := []
  deriving Repr

/-- Record a flag's value in front of what the arguments after it give. -/
def Parsed.setting (n : String) (v : Except FlagError FlagValue) (p : Except FlagError Parsed) :
    Except FlagError Parsed :=
  v.bind fun v => p.map fun p => { p with set := (n, v) :: p.set }

/-- Parse arguments against the flags `specs`, by name and kind. -/
def parseFlags (specs : List (String × FlagKind)) : List String → Except FlagError Parsed
  | [] => .ok {}
  | a :: rest =>
    match ArgForm.of a with
    | .positional => .ok { rest := a :: rest }
    | .terminator => .ok { rest := rest }
    | .malformed => .error (.malformedFlag a)
    | .flag n v? =>
      match specs.lookup n, v? with
      | none, _ => .error (if n = "help" ∨ n = "h" then .help else .undefined n)
      | some .switch, none => Parsed.setting n (.ok (.switch true)) (parseFlags specs rest)
      | some k, some v => Parsed.setting n (k.read n v) (parseFlags specs rest)
      | some k, none =>
        match rest with
        | v :: more => Parsed.setting n (k.read n v) (parseFlags specs more)
        | [] => .error (.needsValue n)

end HotLoop.Cli
