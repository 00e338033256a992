import HotLoop.Float.Double
/-!
# HotLoop.Yaml.Scalar

What the text of a scalar stands for, by its tag.

A plain scalar without a tag is resolved by its text:

* `""`, `~`, `null`, `Null`, `NULL` are null; `true`/`false` in three
  spellings are booleans; `.inf`, `-.inf`, `.nan` and their spellings are
  floats; a plain `<<` is the merge key;
* a text starting with a digit or a sign is, in this order, a timestamp
  (`2001-12-14`, alone, followed by blanks and a time, or by `T` and a time
  with a zone), an integer (underscores ignored; `0x`, `0o`, `0b` and a
  leading `0` choose the base; up to `2^64 - 1`), a decimal float, or an
  integer whose digits after `0b` or `0o` carry a sign (`0o-7` is -7);
* a text starting with `.` may be a decimal float (`.5`, `.1_5e4`), where
  each underscore stands between two digits;
* everything else is a string.

A scalar with one of the standard tags `!!str`, `!!bool`, `!!int`, `!!float`,
`!!null` or `!!timestamp` is resolved the same way (only `!!timestamp` and
no tag look for timestamps; `!!str` takes any text) and must come out with
that tag, except that an integer may stand for a float. Any other tag leaves
the text a string.
-/

namespace HotLoop.Yaml

/-- The prefix of the standard tags. -/
def standardPrefix : String := "tag:yaml.org,2002:"

/-- A tag in short form: the standard prefix is written `!!`. -/
def shortTag (t : String) : String :=
  if t.startsWith standardPrefix then "!!" ++ (t.drop standardPrefix.length).toString else t

/-- What a scalar stands for. -/
inductive Scalar where
  | null
  | bool (b : Bool)
  /-- An integer in the signed 64-bit range. -/
  | int (n : Int)
  /-- An integer above the signed 64-bit range, up to `2^64 - 1`. -/
  | uint (n : Nat)
  | float (x : Double)
  | timestamp
  | str (s : String)
  deriving Inhabited

/-- The short tag of a resolved scalar. -/
def Scalar.tag : Scalar → String
  | .null => "!!null"
  | .bool _ => "!!bool"
  | .int _ | .uint _ => "!!int"
  | .float _ => "!!float"
  | .timestamp => "!!timestamp"
  | .str _ => "!!str"

/-! ## Integers -/

/-- The value of a digit in a base, if it is one. -/
def digitIn (base : Nat) (c : Char) : Option Nat :=
  let d := if c.isDigit then some (c.toNat - '0'.toNat)
    else if 'a' ≤ c ∧ c ≤ 'z' then some (c.toNat - 'a'.toNat + 10)
    else if 'A' ≤ c ∧ c ≤ 'Z' then some (c.toNat - 'A'.toNat + 10)
    else none
  d.bind fun d => if d < base then some d else none

/-- A nonempty run of digits in a base. -/
def digitsIn (base : Nat) (cs : List Char) : Option Nat :=
  if cs.isEmpty then none
  else cs.foldlM (fun n c => (digitIn base c).map (n * base + ·)) 0

/-- An unsigned integer whose base is chosen by its prefix: `0x`, `0o`,
`0b`, or a leading `0` for octal. -/
def unsignedOf (cs : List Char) : Option Nat :=
  match cs with
  | '0' :: 'x' :: r | '0' :: 'X' :: r => digitsIn 16 r
  | '0' :: 'o' :: r | '0' :: 'O' :: r => digitsIn 8 r
  | '0' :: 'b' :: r | '0' :: 'B' :: r => digitsIn 2 r
  | '0' :: r@(_ :: _) => digitsIn 8 r
  | r => digitsIn 10 r

/-- The sign at the head of a text, if any (`true` for minus), and the rest. -/
def splitSign : List Char → Bool × List Char
  | '-' :: r => (true, r)
  | '+' :: r => (false, r)
  | r => (false, r)

/-- A magnitude with a sign, if it lies in the signed 64-bit range. -/
def inInt64 (neg : Bool) (n : Nat) : Option Int :=
  let v : Int := if neg then -(n : Int) else n
  if -9223372036854775808 ≤ v ∧ v ≤ 9223372036854775807 then some v else none

/-- A signed integer in the signed 64-bit range. -/
def signedOf (cs : List Char) : Option Int :=
  let (neg, r) := splitSign cs
  (unsignedOf r).bind (inInt64 neg)

/-- Digits in a fixed base after an optional sign, in the signed 64-bit range. -/
def signedIn (base : Nat) (cs : List Char) : Option Int :=
  let (neg, r) := splitSign cs
  (digitsIn base r).bind (inInt64 neg)

/-- The integer a text with a `0b` or `0o` prefix stands for when it is
neither an integer nor a float as a whole: the digits after `0b` or `0o` may
carry a sign of their own (`0b+1010` is 10, `0o-7` is -7), and after `-0b`
or `-0o` they are read with the minus in front. -/
def prefixedOf (cs : List Char) : Option Scalar :=
  let base (c : Char) : Option Nat := if c == 'b' then some 2 else if c == 'o' then some 8 else none
  match cs with
  | '0' :: c :: r => (base c).bind fun b =>
    match signedIn b r with
    | some v => some (.int v)
    | none => (digitsIn b r).bind fun n => if n < Nat.pow 2 64 then some (.uint n) else none
  | '-' :: '0' :: c :: r => (base c).bind fun b => (signedIn b ('-' :: r)).map Scalar.int
  | _ => none

/-! ## Floats -/

/-- The decimal float form `[-+]?(.d+|d+(.d*)?)([eE][-+]?d+)?`. -/
def isDecimalFloat (cs : List Char) : Bool :=
  let cs := match cs with
    | '-' :: r | '+' :: r => r
    | r => r
  let digits (l : List Char) := l.takeWhile Char.isDigit
  let skip (l : List Char) := l.dropWhile Char.isDigit
  let rest := match cs with
    | '.' :: r => if (digits r).isEmpty then none else some (skip r)
    | r =>
      if (digits r).isEmpty then none
      else match skip r with
        | '.' :: r' => some (skip r')
        | r' => some r'
  match rest with
  | none => false
  | some [] => true
  | some (e :: r) =>
    if e = 'e' ∨ e = 'E' then
      let r := match r with
        | '-' :: r' | '+' :: r' => r'
        | r' => r'
      !(digits r).isEmpty && (skip r).isEmpty
    else false

/-- Whether every underscore of a number's text stands between two digits
(a base prefix such as `0x` counting as a digit, and hex digits as digits
after it); a sign in front is passed over. -/
def underscoresFit (cs : List Char) : Bool :=
  let cs := match cs with
    | '-' :: r | '+' :: r => r
    | r => r
  let (hex, saw, rest) := match cs with
    | '0' :: b :: r =>
      if b = 'x' ∨ b = 'X' then (true, '0', r)
      else if b = 'b' ∨ b = 'B' ∨ b = 'o' ∨ b = 'O' then (false, '0', r)
      else (false, '^', cs)
    | _ => (false, '^', cs)
  let rec go : List Char → Char → Bool
    | [], saw => saw != '_'
    | c :: r, saw =>
      if c.isDigit || (hex && (digitIn 16 c).isSome) then go r '0'
      else if c = '_' then saw == '0' && go r '_'
      else if saw == '_' then false
      else go r '!'
  go rest saw

/-- A finite double read from decimal text; an overflow is no float. -/
def finiteOf (s : String) : Option Double :=
  (Double.read? s).bind fun x =>
    if x.bits &&& 0x7ff0000000000000 == 0x7ff0000000000000 then none else some x

/-! ## Timestamps -/

/-- Days in a month of a year. -/
def monthDays (y m : Nat) : Nat :=
  if m = 2 then (if y % 4 = 0 ∧ (y % 100 ≠ 0 ∨ y % 400 = 0) then 29 else 28)
  else if m = 4 ∨ m = 6 ∨ m = 9 ∨ m = 11 then 30 else 31

/-- One or two digits at the head, with the rest. -/
def smallNumber (cs : List Char) : Option (Nat × List Char) :=
  match cs with
  | a :: b :: r => if a.isDigit then
      if b.isDigit then some ((a.toNat - 48) * 10 + (b.toNat - 48), r) else some (a.toNat - 48, b :: r)
    else none
  | [a] => if a.isDigit then some (a.toNat - 48, []) else none
  | [] => none

/-- Exactly two digits at the head. -/
def twoDigits : List Char → Option Nat
  | a :: b :: _ => if a.isDigit && b.isDigit then some ((a.toNat - 48) * 10 + (b.toNat - 48)) else none
  | _ => none

/-- The text after a literal character of a layout at its head. A blank
matches a whole run of blanks, and needs one unless the text has ended. -/
def literal (x : Char) (cs : List Char) : Option (List Char) :=
  match cs with
  | c :: r =>
    if x = ' ' then (if c = ' ' then some (cs.dropWhile (· = ' ')) else none)
    else if c = x then some r else none
  | [] => if x = ' ' then some [] else none

/-- The text after a date `YYYY-M-D` (month and day of one or two digits,
the day within its month), or nothing. -/
def afterDate (cs : List Char) : Option (List Char) := do
  let y := cs.take 4
  if !(y.length = 4 ∧ y.all Char.isDigit) then none
  let r ← literal '-' (cs.drop 4)
  let (m, r) ← smallNumber r
  if m < 1 ∨ 12 < m then none
  let r ← literal '-' r
  let (d, r) ← smallNumber r
  if d < 1 ∨ d > monthDays ((digitsIn 10 y).getD 0) m then none
  return r

/-- The text after a time of day `h:m:s`, each field of one or two digits in
range, with an optional fraction: a point or comma and the digits after it. -/
def afterTime (cs : List Char) : Option (List Char) := do
  let (h, r) ← smallNumber cs
  if 24 ≤ h then none
  let r ← literal ':' r
  let (mi, r) ← smallNumber r
  if 60 ≤ mi then none
  let r ← literal ':' r
  let (s, r) ← smallNumber r
  if 60 ≤ s then none
  match r with
  | c :: d :: rest => if (c = '.' ∨ c = ',') ∧ d.isDigit then some (rest.dropWhile Char.isDigit) else some r
  | _ => some r

/-- The text after a zone: `Z`, or `±hh:mm` with at most 24 hours and 60
minutes. -/
def afterZone : List Char → Option (List Char)
  | 'Z' :: r => some r
  | s :: r => do
    if r.length < 5 ∨ r.getD 2 ' ' ≠ ':' then none
    let h ← twoDigits r
    let mi ← twoDigits (r.drop 3)
    if 24 < h ∨ 60 < mi ∨ (s ≠ '+' ∧ s ≠ '-') then none
    return r.drop 5
  | [] => none

/-- The timestamp layouts, each taking a text to what it leaves over: a date
and a time after `T` or `t` with a zone, a date and a time after blanks, or a
date alone. -/
def timestampLayouts : List (List Char → Option (List Char)) :=
  [fun cs => do afterZone (← afterTime (← literal 'T' (← afterDate cs))),
   fun cs => do afterZone (← afterTime (← literal 't' (← afterDate cs))),
   fun cs => do afterTime (← literal ' ' (← afterDate cs)),
   afterDate]

/-- Whether a text is a timestamp: it starts with four digits and `-`, and one
of the layouts reads all of it. -/
def isTimestamp (cs : List Char) : Bool :=
  (cs.takeWhile Char.isDigit).length == 4 && cs.getD 4 ' ' == '-' &&
    timestampLayouts.any fun layout => layout cs == some []

/-! ## Resolution -/

/-- The words that resolve by themselves. -/
def words : List (String × Scalar) :=
  [("true", .bool true), ("True", .bool true), ("TRUE", .bool true),
   ("false", .bool false), ("False", .bool false), ("FALSE", .bool false),
   ("", .null), ("~", .null), ("null", .null), ("Null", .null), ("NULL", .null),
   (".nan", .float Double.nan), (".NaN", .float Double.nan), (".NAN", .float Double.nan),
   (".inf", .float ⟨0x7ff0000000000000⟩), (".Inf", .float ⟨0x7ff0000000000000⟩),
   (".INF", .float ⟨0x7ff0000000000000⟩), ("+.inf", .float ⟨0x7ff0000000000000⟩),
   ("+.Inf", .float ⟨0x7ff0000000000000⟩), ("+.INF", .float ⟨0x7ff0000000000000⟩),
   ("-.inf", .float ⟨0xfff0000000000000⟩), ("-.Inf", .float ⟨0xfff0000000000000⟩),
   ("-.INF", .float ⟨0xfff0000000000000⟩)]

/-- A number or timestamp written from a digit or sign; timestamps only when
`timestamps`. -/
def numberOf (s : String) (timestamps : Bool) : Scalar :=
  let cs := s.toList
  if timestamps && isTimestamp cs then .timestamp
  else
    let plain := cs.filter (· != '_')
    let other := (prefixedOf plain).getD (.str s)
    let asFloat := if isDecimalFloat plain then ((finiteOf (String.ofList plain)).map Scalar.float).getD other
      else other
    match signedOf plain with
    | some n => .int n
    | none =>
      match unsignedOf plain with
      | some n => if n < Nat.pow 2 64 then .uint n else asFloat
      | none => asFloat

/-- What a text stands for when read as `tag` would have it (`""` for none):
a text whose first character hints at no other kind, and any text under
`!!str`, is a string. -/
def guess (tag s : String) : Scalar :=
  let hinted := match s.toList with
    | [] => true
    | c :: _ => c.isDigit || c = '+' || c = '-' || c = '.' || "yYnNtTfFoO~".contains c
  if !hinted || tag == "!!str" then .str s
  else match words.find? (·.1 == s) with
  | some (_, v) => v
  | none =>
    match s.toList with
    | '.' :: _ =>
      let cs := s.toList
      let read := if cs.contains '_' then
          if underscoresFit cs then finiteOf (String.ofList (cs.filter (· != '_'))) else none
        else finiteOf s
      (read.map Scalar.float).getD (.str s)
    | c :: _ => if c.isDigit || c = '+' || c = '-' then numberOf s (tag == "" || tag == "!!timestamp") else .str s
    | [] => .null

/-- The standard tags whose scalars are resolved from their text. -/
def resolvedTags : List String := ["", "!!str", "!!bool", "!!int", "!!float", "!!null", "!!timestamp"]

/-- The tag and value of a scalar written `s` under `tag` (`""` for none).
A standard tag the text does not fit is a failure, except that an integer
under `!!float` is that float. -/
def Scalar.resolve (tag s : String) : Except String (String × Scalar) :=
  let tag := shortTag tag
  if !resolvedTags.contains tag then .ok (tag, .str s)
  else
    let v := guess tag s
    if tag == "" || tag == v.tag || tag == "!!str" then .ok (v.tag, v)
    else match tag, v with
      | "!!float", .int n => .ok ("!!float", .float (Double.ofInt64 (Int64.ofInt n)))
      | _, _ => .error ("cannot decode " ++ v.tag ++ " `" ++ s ++ "` as a " ++ tag)

/-- The tag a plain scalar's text resolves to. -/
def Scalar.tagOf (s : String) : String := (guess "" s).tag

end HotLoop.Yaml
