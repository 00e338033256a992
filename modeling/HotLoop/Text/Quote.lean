import HotLoop.Text.Printable
/-!
# HotLoop.Text.Quote

Quoting text for messages, and the Unicode notions it needs.

`quote` writes a string between double quotes: a quote and a backslash get
a backslash, the usual control characters their letter escapes (`\n`, `\t`,
…), other control bytes `\xNN`, and the other characters that do not print
(see `isPrintable`) `\uNNNN` or `\UNNNNNNNN`; everything else stands for
itself.

`isSpace` is the Unicode white space: tab, line feed, vertical tab, form
feed, carriage return, blank, next line, no-break space and the space
separators; `trimSpace` removes it from both ends.
-/

namespace HotLoop.Text

/-- Unicode white space. -/
def isSpace (c : Char) : Bool :=
  let n := c.toNat
  n == 0x20 || (0x09 ≤ n && n ≤ 0x0d) || n == 0x85 || n == 0xa0 || n == 0x1680 ||
    (0x2000 ≤ n && n ≤ 0x200a) || n == 0x2028 || n == 0x2029 || n == 0x202f ||
    n == 0x205f || n == 0x3000

/-- Hex digits of `n`, lowercase, padded to `w`. -/
def hexPad (n w : Nat) : String :=
  let s := String.ofList (Nat.toDigits 16 n)
  String.ofList (List.replicate (w - s.length) '0') ++ s

/-- The escaped form of one character inside quotes: a quote and a
backslash get a backslash, printable characters stand for themselves, and
the others are written as a letter escape, `\xNN` below the blank and for
DEL, `\uNNNN` or `\UNNNNNNNN` above. -/
def escape (c : Char) : String :=
  match c with
  | '"' => "\\\""
  | '\\' => "\\\\"
  | c =>
    if isPrintable c then c.toString
    else
      let n := c.toNat
      if n == 7 then "\\a" else if n == 8 then "\\b" else if n == 12 then "\\f"
      else if n == 10 then "\\n" else if n == 13 then "\\r" else if n == 9 then "\\t"
      else if n == 11 then "\\v"
      else if n < 0x20 || n == 0x7f then "\\x" ++ hexPad n 2
      else if n < 0x10000 then "\\u" ++ hexPad n 4 else "\\U" ++ hexPad n 8

/-- A string between double quotes, escaped. -/
def quote (s : String) : String :=
  "\"" ++ String.join (s.toList.map escape) ++ "\""

/-- Remove white space from both ends. -/
def trimSpace (s : String) : String :=
  String.ofList ((s.toList.dropWhile isSpace).reverse.dropWhile isSpace).reverse

end HotLoop.Text
