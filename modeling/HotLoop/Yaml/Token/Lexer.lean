import HotLoop.Yaml.Token
/-!
# HotLoop.Yaml.Token.Lexer

Splitting a YAML text into tokens.

The lexer keeps the indentation levels of the open block collections and, on
each flow level, the place where a key written without `?` may have begun (a
*simple key*): a scalar, alias, anchor, tag or flow collection in a position
that allows a key. When a `:` follows on the same line, within 1024
characters, a `key` token is put in front of the saved place, preceded by a
`blockMappingStart` when the key opens a new indentation level. A simple key
is *required* where a block mapping's key must stand (at the current
indentation, outside flow collections); a required key that never meets its
`:` is an error.

Tokens are handed out one at a time, but the lexer always reads at least
three ahead, and further while the next token may still turn out to be a key;
so a problem a little ahead in the text can be found before the tokens in
front of it are used.

The text is checked for characters the format does not allow in parts: the
characters that lie wholly within the first 512 bytes, then those within
the next 512 bytes after where the last part stopped, each part when the
lexer first needs to look into it.
-/

namespace HotLoop.Yaml

/-! ## Characters -/

/-- Whether the format allows a character: tab, line feed, carriage return,
printable ASCII, next line, and all of Unicode from U+00A0 on except the
surrogates, U+FFFE and U+FFFF. -/
def allowedChar (c : Char) : Bool :=
  let n := c.toNat
  n == 0x09 || n == 0x0A || n == 0x0D || (0x20 ≤ n && n ≤ 0x7E) || n == 0x85 ||
    (0xA0 ≤ n && n ≤ 0xD7FF) || (0xE000 ≤ n && n ≤ 0xFFFD) || (0x10000 ≤ n && n ≤ 0x10FFFF)

/-- A space or a tab. -/
def isBlank (c : Char) : Bool := c == ' ' || c == '\t'

/-- A line break: carriage return, line feed, next line, line or paragraph
separator. -/
def isBreak (c : Char) : Bool :=
  c == '\r' || c == '\n' || c == '\x85' || c == '\u2028' || c == '\u2029'

/-- The end of the text, which reads as NUL. -/
def isEnd (c : Char) : Bool := c == '\x00'

/-- A line break or the end. -/
def isBreakOrEnd (c : Char) : Bool := isBreak c || isEnd c

/-- A blank, a line break or the end. -/
def isSpacing (c : Char) : Bool := isBlank c || isBreakOrEnd c

/-- An ASCII letter or digit, `_` or `-`: the characters of names. -/
def isWordChar (c : Char) : Bool := c.isAlphanum || c == '_' || c == '-'

/-- The value of a hexadecimal digit. -/
def hexValue (c : Char) : Option Nat :=
  if c.isDigit then some (c.toNat - 48)
  else if 'a' ≤ c ∧ c ≤ 'f' then some (c.toNat - 87)
  else if 'A' ≤ c ∧ c ≤ 'F' then some (c.toNat - 55)
  else none

/-- A character that may stand in a tag's URI. -/
def isUriChar (c : Char) : Bool := isWordChar c || ";/?:@&=+$,.!~*'()[]%".contains c

/-- The characters that cannot start a plain scalar. -/
def indicators : String := "-?:,[]\x7b\x7d#&*!|>'\"%@`"

/-! ## State -/

/-- A place where a key written without `?` may begin. -/
structure SimpleKey where
  possible : Bool := false
  required : Bool := false
  /-- The number of the token the key would stand in front of. -/
  number : Nat := 0
  mark : Mark := {}
  deriving Inhabited

/-- The state of splitting a text into tokens. -/
structure Lexer where
  text : Array Char := #[]
  /-- The byte offset of each character, and of the end. -/
  offsets : Array Nat := #[]
  /-- Characters checked so far. -/
  checked : Nat := 0
  /-- Whether the whole text has been checked. -/
  exhausted : Bool := false
  firstPart : Bool := true
  /-- Where the characters read ahead begin: the position of the last time
  more had to be read. -/
  bufferStart : Nat := 0
  /-- How often the end of the text has been read; each time counts as one
  more character read ahead. -/
  ends : Nat := 0
  mark : Mark := {}
  /-- Line breaks passed since the last character that is not blank. -/
  newlines : Nat := 0
  flowLevel : Nat := 0
  indent : Int := -1
  /-- The enclosing indentation levels, innermost first. -/
  indents : List Int := []
  keyAllowed : Bool := false
  /-- The possible simple key of each flow level, outermost first. -/
  keys : Array SimpleKey := #[]
  /-- Which level's simple key stands in front of a token, by token number. -/
  keyOfToken : List (Nat × Nat) := []
  tokens : Array Token := #[]
  /-- The first token not yet handed out. -/
  head : Nat := 0
  /-- Tokens handed out. -/
  taken : Nat := 0
  ready : Bool := false
  started : Bool := false
  finished : Bool := false
  deriving Inhabited

/-- A lexer at the start of a text; a byte order mark in front is dropped. -/
def Lexer.ofText (s : String) : Lexer :=
  let (bom, cs) := match s.toList with
    | '\uFEFF' :: r => (3, r)
    | r => (0, r)
  let (offs, total) := cs.foldl (fun (acc : Array Nat × Nat) c => (acc.1.push acc.2, acc.2 + c.utf8Size))
    (#[], bom)
  { text := cs.toArray, offsets := offs.push total }

/-- The character `k` places ahead. -/
def Lexer.char (l : Lexer) (k : Nat) : Char := l.text.getD (l.mark.index + k) '\x00'

/-- Whether a document marker (`---` or `...`, by `c`) starts the line here. -/
def Lexer.atMarker (l : Lexer) (c : Char) : Bool :=
  l.mark.column == 0 && l.char 0 == c && l.char 1 == c && l.char 2 == c && isSpacing (l.char 3)

/-- The position after a line break of `width` characters. -/
def Lexer.nextLine (l : Lexer) (width : Nat) : Lexer :=
  { l with mark := ⟨l.mark.index + width, l.mark.line + 1, 0⟩, newlines := l.newlines + 1 }

/-- Lexing: a failure ends it. -/
abbrev Lex := EStateM Fault Lexer

namespace Lex

/-- The character `k` places ahead. -/
def look (k : Nat) : Lex Char := do return (← get).char k

/-- The current position. -/
def here : Lex Mark := do return (← get).mark

/-- A bound on the steps of any loop over the text. -/
def budget : Lex Nat := do return (← get).text.size + 2

/-! ## Checking the characters -/

/-- Where the part of the text that ends at byte `limit` stops. -/
def partEnd (l : Lexer) (limit : Nat) : Nat :=
  l.checked + ((List.range' l.checked (l.text.size - l.checked)).takeWhile
    fun j => l.offsets.getD (j + 1) 0 ≤ limit).length

/-- Check the next part of the text. -/
def checkPart : Lex Unit := do
  let l ← get
  if l.checked ≥ l.text.size then set { l with exhausted := true }
  else
    let limit := if l.firstPart then 512 else l.offsets.getD l.checked 0 + 512
    let stop := partEnd l limit
    if (List.range' l.checked (stop - l.checked)).any (fun i => !allowedChar (l.text.getD i ' ')) then
      throw (.reading "control characters are not allowed")
    set { l with checked := stop, firstPart := false }

/-- Read parts until `n` characters ahead are read; reading the end of the
text counts once and stops. -/
def fillFor (n : Nat) : Nat → Lex Unit
  | 0 => pure ()
  | fuel + 1 => do
    if !(← get).exhausted then checkPart
    let l ← get
    if l.exhausted then set { l with ends := l.ends + 1 }
    else if l.checked + l.ends < l.mark.index + n then fillFor n fuel

/-- Make sure the next `n` characters are read. When fewer are, what is read
ahead starts over at the current position and more is read. -/
def ensure (n : Nat) : Lex Unit := do
  let l ← get
  if l.checked + l.ends < l.mark.index + n then
    set { l with bufferStart := l.mark.index }
    fillFor n (← budget)

/-! ## Moving -/

/-- Pass a character that is not a line break. -/
def skip : Lex Unit := modify fun l =>
  { l with newlines := if isBlank (l.char 0) then l.newlines else 0,
           mark := { l.mark with index := l.mark.index + 1, column := l.mark.column + 1 } }

/-- Pass a character, adding it to `s`. -/
def read (s : String) : Lex String := do
  let c ← look 0
  skip
  return s.push c

/-- Pass a line break, if one is here; CR LF counts as one. -/
def skipLine : Lex Unit := modify fun l =>
  if l.char 0 == '\r' && l.char 1 == '\n' then l.nextLine 2
  else if isBreak (l.char 0) then l.nextLine 1
  else l

/-- Pass a line break, adding it to `s`: CR, LF, CR LF and next line as a
line feed, a line or paragraph separator as itself. -/
def readLine (s : String) : Lex String := do
  let l ← get
  let c := l.char 0
  if c == '\r' && l.char 1 == '\n' then
    set (l.nextLine 2)
    return s.push '\n'
  else if c == '\r' || c == '\n' || c == '\x85' then
    set (l.nextLine 1)
    return s.push '\n'
  else if c == '\u2028' || c == '\u2029' then
    set (l.nextLine 1)
    return s.push c
  else return s

/-- Pass blanks. -/
def skipBlanks : Nat → Lex Unit
  | 0 => pure ()
  | fuel + 1 => do
    if isBlank (← look 0) then
      skip
      ensure 1
      skipBlanks fuel

/-- Pass everything up to the end of the line. -/
def skipToBreak : Nat → Lex Unit
  | 0 => pure ()
  | fuel + 1 => do
    if !isBreakOrEnd (← look 0) then
      skip
      ensure 1
      skipToBreak fuel

/-- Add name characters to `s`. -/
def wordChars (s : String) : Nat → Lex String
  | 0 => pure s
  | fuel + 1 => do
    if isWordChar (← look 0) then
      let s ← read s
      ensure 1
      wordChars s fuel
    else pure s

/-! ## Tokens and simple keys -/

/-- Put a token at the end of the queue, or at place `p` from its head. -/
def insertToken (p : Option Nat) (t : Token) : Lex Unit := modify fun l =>
  match p with
  | none => { l with tokens := l.tokens.push t }
  | some p =>
    let i := l.head + p
    { l with tokens := (l.tokens.extract 0 i).push t ++ l.tokens.extract i l.tokens.size }

/-- Put a token at the end of the queue. -/
def append (k : TokenKind) (start stop : Mark) : Lex Unit := insertToken none ⟨k, start, stop⟩

/-- Allow or forbid a simple key at the next token. -/
def allowKey (b : Bool) : Lex Unit := modify fun l => { l with keyAllowed := b }

/-- Whether the possible simple key of level `i` can still be one: it must be
on the current line and at most 1024 characters back. One that cannot is
no longer possible, and an error if it was required. -/
def keyValid (i : Nat) : Lex Bool := do
  let l ← get
  let k := l.keys.getD i {}
  if !k.possible then return false
  if k.mark.line < l.mark.line || k.mark.index + 1024 < l.mark.index then
    if k.required then throw (.scanning k.mark l.mark "could not find expected ':'")
    set { l with keys := l.keys.modify i fun k => { k with possible := false } }
    return false
  return true

/-- Give up the possible simple key of the current level; an error if it was
required. -/
def removeKey : Lex Unit := do
  let l ← get
  let i := l.keys.size - 1
  let k := l.keys.getD i {}
  if k.possible then
    if k.required then throw (.scanning k.mark l.mark "could not find expected ':'")
    set { l with keys := l.keys.modify i (fun k => { k with possible := false }),
                 keyOfToken := l.keyOfToken.filter (·.1 != k.number) }

/-- Remember the current position as a possible simple key, if a key may
start here. -/
def saveKey : Lex Unit := do
  let l ← get
  if l.keyAllowed then
    let k : SimpleKey := { possible := true, required := l.flowLevel == 0 && l.indent == (l.mark.column : Int),
                           number := l.taken + (l.tokens.size - l.head), mark := l.mark }
    removeKey
    modify fun l =>
      let i := l.keys.size - 1
      { l with keys := l.keys.modify i (fun _ => k),
               keyOfToken := (k.number, i) :: l.keyOfToken.filter (·.1 != k.number) }

/-- Enter a flow collection. -/
def increaseFlow : Lex Unit := do
  modify fun l => { l with keys := l.keys.push { mark := l.mark }, flowLevel := l.flowLevel + 1 }
  let l ← get
  if l.flowLevel > 10000 then
    throw (.scanning ((l.keys.back?.map (·.mark)).getD {}) l.mark "exceeded max depth of 10000")

/-- Leave a flow collection. -/
def decreaseFlow : Lex Unit := modify fun l =>
  if l.flowLevel > 0 then
    let k := l.keys.back?.getD {}
    { l with flowLevel := l.flowLevel - 1, keyOfToken := l.keyOfToken.filter (·.1 != k.number),
             keys := l.keys.pop }
  else l

/-- Open an indentation level at `column` in block context, with a token of
kind `kind` at the place of token number `number` (or at the end). -/
def rollIndent (column : Int) (number : Option Nat) (kind : TokenKind) (m : Mark) : Lex Unit := do
  let l ← get
  if l.flowLevel == 0 && l.indent < column then
    let l := { l with indents := l.indent :: l.indents, indent := column }
    set l
    if l.indents.length > 10000 then
      throw (.scanning ((l.keys.back?.map (·.mark)).getD {}) l.mark "exceeded max depth of 10000")
    insertToken (number.map (· - l.taken)) ⟨kind, m, m⟩

/-- Close the indentation levels deeper than `column`, a `blockEnd` for each. -/
def closeLevels (column : Int) (m : Mark) : Int → List Int → Array Token → Int × List Int × Array Token
  | indent, i :: rest, ts =>
    if indent > column then closeLevels column m i rest (ts.push ⟨.blockEnd, m, m⟩)
    else (indent, i :: rest, ts)
  | indent, [], ts => (indent, [], ts)

/-- Close the indentation levels deeper than `column` in block context; the
`blockEnd` tokens stand just before `from`. -/
def unrollIndent (column : Int) («from» : Mark) : Lex Unit := modify fun l =>
  if l.flowLevel > 0 then l
  else
    let (indent, indents, tokens) :=
      closeLevels column { «from» with index := «from».index - 1 } l.indent l.indents l.tokens
    { l with indent := indent, indents := indents, tokens := tokens }

/-! ## Comments -/

/-- Pass everything up to the line break that ends the comment starting at
character `seen`. -/
def passComment (seen : Nat) : Nat → Lex Unit
  | 0 => pure ()
  | fuel + 1 => do
    ensure 1
    let l ← get
    if isBreakOrEnd (l.char 0) then
      if l.mark.index ≥ seen then return
      ensure 2
      skipLine
    else skip
    passComment seen fuel

/-- A comment after a token on its line: pass it, with the blanks before it. -/
def trailingCommentFrom (peek : Nat) : Nat → Lex Unit
  | 0 => pure ()
  | fuel + 1 => do
    ensure (peek + 1)
    let c ← look peek
    if isBlank c then trailingCommentFrom (peek + 1) fuel
    else if c == '#' then passComment ((← here).index + peek) (← budget)

/-- Pass a comment that follows a token on its line. -/
def trailingComment : Lex Unit := do
  if (← get).newlines == 0 then trailingCommentFrom 0 512

/-- How far ahead, past blanks and line breaks and within 512 characters, the
next comment starts. -/
def nextComment (peek : Nat) : Nat → Lex (Option Nat)
  | 0 => pure none
  | fuel + 1 => do
    ensure (peek + 1)
    let l ← get
    let c := l.char peek
    if isBlank c then nextComment (peek + 1) fuel
    else if l.flowLevel > 0 && (c == ']' || c == '}') then pure none
    else if isBreak c then nextComment (peek + 1) fuel
    else if c == '#' then pure (some peek)
    else pure none

/-- Pass a run of comment lines, with the blank lines between them. -/
def commentLines : Nat → Nat → Lex Unit
  | 0, _ => pure ()
  | n + 1, peek => do
    match ← nextComment peek (512 - peek) with
    | none => pure ()
    | some p =>
      passComment ((← here).index + p) (← budget)
      commentLines n 1

/-! ## Between tokens -/

/-- Pass spaces, and tabs where they cannot be taken for indentation. -/
def skipSpaces : Nat → Lex Unit
  | 0 => pure ()
  | fuel + 1 => do
    let l ← get
    let c := l.char 0
    if c == ' ' || ((l.flowLevel > 0 || !l.keyAllowed) && c == '\t') then
      skip
      ensure 1
      skipSpaces fuel

/-- Pass blanks, comments and line breaks up to the next token. A line break
in block context allows a simple key. -/
def toNextToken : Nat → Lex Unit
  | 0 => pure ()
  | fuel + 1 => do
    ensure 1
    let l ← get
    if l.mark.column == 0 && l.text.getD l.bufferStart ' ' == '\uFEFF' then skip
    ensure 1
    skipSpaces (← budget)
    if (← look 0) == '#' then commentLines (← budget) 0
    if isBreak (← look 0) then
      ensure 2
      skipLine
      modify fun l => if l.flowLevel == 0 then { l with keyAllowed := true } else l
      toNextToken fuel

/-! ## Stream, directives and document markers -/

/-- The start of the stream. -/
def streamStart : Lex Unit := modify fun l =>
  { l with indent := -1, keys := l.keys.push {}, keyAllowed := true, started := true,
           tokens := l.tokens.push ⟨.streamStart, l.mark, l.mark⟩ }

/-- The end of the stream, on a line of its own. -/
def streamEnd : Lex Unit := do
  modify fun l =>
    if l.mark.column ≠ 0 then { l with mark := { l.mark with column := 0, line := l.mark.line + 1 } } else l
  unrollIndent (-1) (← here)
  removeKey
  allowKey false
  let m ← here
  append .streamEnd m m

/-- The digits of a `%YAML` version number, at most two. -/
def versionDigits (start : Mark) (value length : Nat) : Nat → Lex Nat
  | 0 => pure value
  | fuel + 1 => do
    let c ← look 0
    if c.isDigit then
      if length + 1 > 2 then throw (.scanning start (← here) "found extremely long version number")
      skip
      ensure 1
      versionDigits start (value * 10 + (c.toNat - 48)) (length + 1) fuel
    else if length == 0 then throw (.scanning start (← here) "did not find expected version number")
    else pure value

/-- A `%YAML` version number. -/
def versionNumber (start : Mark) : Lex Nat := do
  ensure 1
  versionDigits start 0 0 (← budget)

/-- A tag handle: `!`, `!!` or `!name!`; in a directive it must end in `!`
unless it is `!`. -/
def tagHandle (directive : Bool) (start : Mark) : Lex String := do
  ensure 1
  if (← look 0) != '!' then throw (.scanning start (← here) "did not find expected '!'")
  let s ← read ""
  ensure 1
  let s ← wordChars s (← budget)
  if (← look 0) == '!' then read s
  else if directive && s != "!" then throw (.scanning start (← here) "did not find expected '!'")
  else pure s

/-- The byte of a `%XX` escape. -/
def uriOctet (start : Mark) : Lex Nat := do
  ensure 3
  let l ← get
  match l.char 0, hexValue (l.char 1), hexValue (l.char 2) with
  | '%', some h, some d => pure (h * 16 + d)
  | _, _, _ => throw (.scanning start l.mark "did not find URI escaped octet")

/-- The continuation bytes of an escaped character, `n` more escapes. -/
def uriTrailing (start : Mark) (bytes : Array UInt8) : Nat → Lex (Array UInt8)
  | 0 => pure bytes
  | n + 1 => do
    let o ← uriOctet start
    if o / 64 != 2 then throw (.scanning start (← here) "found an incorrect trailing UTF-8 octet")
    skip
    skip
    skip
    uriTrailing start (bytes.push o.toUInt8) n

/-- A `%`-escaped character of a URI, added to `s`: as many escapes as its
first byte announces in UTF-8. -/
def uriEscape (start : Mark) (s : String) : Lex String := do
  let o ← uriOctet start
  let width :=
    if o < 0x80 then 1 else if o / 32 == 6 then 2 else if o / 16 == 14 then 3
    else if o / 8 == 30 then 4 else 0
  if width == 0 then throw (.scanning start (← here) "found an incorrect leading UTF-8 octet")
  skip
  skip
  skip
  let bytes ← uriTrailing start #[o.toUInt8] (width - 1)
  return match String.fromUTF8? (ByteArray.mk bytes) with
    | some t => s ++ t
    | none => s.push '\uFFFD'

/-- The characters of a URI. -/
def uriChars (start : Mark) (s : String) (found : Bool) : Nat → Lex (String × Bool)
  | 0 => pure (s, found)
  | fuel + 1 => do
    let c ← look 0
    if isUriChar c then
      let s ← if c == '%' then uriEscape start s else read s
      ensure 1
      uriChars start s true fuel
    else pure (s, found)

/-- A tag's URI, after `head` (less its leading `!`) if a handle turned out
to be part of it. -/
def tagUri (head : String) (start : Mark) : Lex String := do
  ensure 1
  let (s, found) ← uriChars start (head.drop 1).toString (!head.isEmpty) (← budget)
  if !found then throw (.scanning start (← here) "did not find expected tag URI")
  return s

/-- A directive: `%YAML` or `%TAG`; any other name is an error. The rest of
its line may hold only blanks and a comment. -/
def directive : Lex Unit := do
  unrollIndent (-1) (← here)
  removeKey
  allowKey false
  let start ← here
  skip
  ensure 1
  let name ← wordChars "" (← budget)
  if name.isEmpty then throw (.scanning start (← here) "could not find expected directive name")
  if !isSpacing (← look 0) then throw (.scanning start (← here) "found unexpected non-alphabetical character")
  let kind ← if name == "YAML" then do
      ensure 1
      skipBlanks (← budget)
      let major ← versionNumber start
      if (← look 0) != '.' then
        throw (.scanning start (← here) "did not find expected digit or '.' character")
      skip
      let minor ← versionNumber start
      pure (TokenKind.version major minor)
    else if name == "TAG" then do
      ensure 1
      skipBlanks (← budget)
      let handle ← tagHandle true start
      ensure 1
      if !isBlank (← look 0) then throw (.scanning start (← here) "did not find expected whitespace")
      skipBlanks (← budget)
      let uri ← tagUri "" start
      ensure 1
      if !isSpacing (← look 0) then
        throw (.scanning start (← here) "did not find expected whitespace or line break")
      pure (TokenKind.tagDirective handle uri)
    else throw (.scanning start (← here) "found unknown directive name")
  let stop ← here
  ensure 1
  skipBlanks (← budget)
  if (← look 0) == '#' then skipToBreak (← budget)
  if !isBreakOrEnd (← look 0) then
    throw (.scanning start (← here) "did not find expected comment or line break")
  if isBreak (← look 0) then
    ensure 2
    skipLine
  append kind start stop

/-- `---` or `...`. -/
def documentIndicator (kind : TokenKind) : Lex Unit := do
  unrollIndent (-1) (← here)
  removeKey
  allowKey false
  let start ← here
  skip
  skip
  skip
  append kind start (← here)

/-! ## Indicators -/

/-- `[` or `{`, which may begin a key. -/
def collectionStart (kind : TokenKind) : Lex Unit := do
  saveKey
  increaseFlow
  allowKey true
  let start ← here
  skip
  append kind start (← here)

/-- `]` or `}`. -/
def collectionEnd (kind : TokenKind) : Lex Unit := do
  removeKey
  decreaseFlow
  allowKey false
  let start ← here
  skip
  append kind start (← here)

/-- `,`. -/
def flowEntry : Lex Unit := do
  removeKey
  allowKey true
  let start ← here
  skip
  append .flowEntry start (← here)

/-- `-` followed by a blank: in block context, where a key may start, and
opening a sequence at a deeper column. -/
def blockEntry : Lex Unit := do
  let l ← get
  if l.flowLevel == 0 then
    if !l.keyAllowed then
      throw (.scanning l.mark l.mark "block sequence entries are not allowed in this context")
    rollIndent l.mark.column none .blockSequenceStart l.mark
  removeKey
  allowKey true
  let start ← here
  skip
  append .blockEntry start (← here)

/-- `?`: in block context, where a key may start, and opening a mapping at a
deeper column. -/
def keyIndicator : Lex Unit := do
  let l ← get
  if l.flowLevel == 0 then
    if !l.keyAllowed then
      throw (.scanning l.mark l.mark "mapping keys are not allowed in this context")
    rollIndent l.mark.column none .blockMappingStart l.mark
  removeKey
  modify fun l => { l with keyAllowed := l.flowLevel == 0 }
  let start ← here
  skip
  append .key start (← here)

/-- `:`. After a simple key it puts a `key` token in front of the key (and
opens a mapping at the key's column); otherwise, in block context, it must
stand where a key may start. -/
def valueIndicator : Lex Unit := do
  let i := (← get).keys.size - 1
  if ← keyValid i then
    let l ← get
    let k := l.keys.getD i {}
    insertToken (some (k.number - l.taken)) ⟨.key, k.mark, k.mark⟩
    rollIndent k.mark.column (some k.number) .blockMappingStart k.mark
    modify fun l => { l with keys := l.keys.modify i (fun k => { k with possible := false }),
                             keyOfToken := l.keyOfToken.filter (·.1 != k.number), keyAllowed := false }
  else
    let l ← get
    if l.flowLevel == 0 then
      if !l.keyAllowed then
        throw (.scanning l.mark l.mark "mapping values are not allowed in this context")
      rollIndent l.mark.column none .blockMappingStart l.mark
    modify fun l => { l with keyAllowed := l.flowLevel == 0 }
  let start ← here
  skip
  append .value start (← here)

/-- `&name` or `*name`: a name of word characters, followed by a blank or one
of `? : , ] } % @` and the backquote. -/
def anchorOrAlias (isAlias : Bool) : Lex Unit := do
  saveKey
  allowKey false
  let start ← here
  skip
  ensure 1
  let name ← wordChars "" (← budget)
  let stop ← here
  let c ← look 0
  if name.isEmpty || !(isSpacing c || "?:,]\x7d%@`".contains c) then
    throw (.scanning start (← here) "did not find expected alphabetic or numeric character")
  append (if isAlias then .alias name else .anchor name) start stop

/-- A tag: `!<uri>`, `!handle!suffix`, or `!suffix` (the handle `!`); a lone
`!` has an empty handle and the suffix `!`. -/
def tagToken : Lex Unit := do
  saveKey
  allowKey false
  let start ← here
  ensure 2
  let (handle, suffix) ← if (← look 1) == '<' then do
      skip
      skip
      let suffix ← tagUri "" start
      if (← look 0) != '>' then throw (.scanning start (← here) "did not find the expected '>'")
      skip
      pure ("", suffix)
    else do
      let handle ← tagHandle false start
      if handle.length > 1 && handle.front == '!' && handle.back == '!' then
        pure (handle, ← tagUri "" start)
      else
        let suffix ← tagUri handle start
        pure (if suffix.isEmpty then ("", "!") else ("!", suffix))
  ensure 1
  let c ← look 0
  if !isSpacing c && ((← get).flowLevel == 0 || c != ',') then
    throw (.scanning start (← here) "did not find expected whitespace or line break")
  append (.tag handle suffix) start (← here)

/-! ## Scalars -/

/-- What a scalar has read, and the blanks and line breaks held back until
the next character shows how to join them. -/
structure Folding where
  text : String := ""
  leadingBreak : String := ""
  trailingBreaks : String := ""
  blanks : String := ""
  leadingBlanks : Bool := false

/-- Join what was held back: a single line feed between two lines becomes a
space, more line breaks stay less the first; blanks within a line stay. -/
def Folding.join (f : Folding) : Folding :=
  if f.leadingBlanks then
    let text :=
      if f.leadingBreak.startsWith "\n" then
        (if f.trailingBreaks.isEmpty then f.text.push ' ' else f.text ++ f.trailingBreaks)
      else f.text ++ f.leadingBreak ++ f.trailingBreaks
    { f with text := text, leadingBreak := "", trailingBreaks := "", leadingBlanks := false }
  else { f with text := f.text ++ f.blanks, blanks := "" }

/-- Blanks and line breaks inside a scalar; in a plain scalar (`indent` given)
a tab may not stand in the indentation of a continuation line. -/
def scalarBlanks (tabCheck : Option (Int × Mark)) : Nat → Folding → Lex Folding
  | 0, f => pure f
  | fuel + 1, f => do
    let l ← get
    let c := l.char 0
    if isBlank c then
      if let some (indent, start) := tabCheck then
        if f.leadingBlanks && (l.mark.column : Int) < indent && c == '\t' then
          throw (.scanning start l.mark "found a tab character that violates indentation")
      let f ← if !f.leadingBlanks then do pure { f with blanks := ← read f.blanks } else do skip; pure f
      ensure 1
      scalarBlanks tabCheck fuel f
    else if isBreak c then
      ensure 2
      let f ← if !f.leadingBlanks then do
          pure { f with blanks := "", leadingBreak := ← readLine "", leadingBlanks := true }
        else do pure { f with trailingBreaks := ← readLine f.trailingBreaks }
      ensure 1
      scalarBlanks tabCheck fuel f
    else pure f

/-- The characters of a plain scalar up to a blank, a line break, `: ` or,
in flow context, a flow indicator. -/
def plainWord : Nat → Folding → Mark → Lex (Folding × Mark)
  | 0, f, stop => pure (f, stop)
  | fuel + 1, f, stop => do
    let l ← get
    let c := l.char 0
    if isSpacing c then return (f, stop)
    if (c == ':' && isSpacing (l.char 1)) || (l.flowLevel > 0 && ",?[]\x7b\x7d".contains c) then
      return (f, stop)
    let f := if f.leadingBlanks || !f.blanks.isEmpty then f.join else f
    let text ← read f.text
    let stop ← here
    ensure 2
    plainWord fuel { f with text := text } stop

/-- The lines of a plain scalar: it ends at a comment, a document marker, or,
in block context, a line indented less than `indent`. -/
def plainRuns (indent : Int) (start : Mark) : Nat → Folding → Mark → Lex (Folding × Mark)
  | 0, f, stop => pure (f, stop)
  | fuel + 1, f, stop => do
    ensure 4
    let l ← get
    if l.atMarker '-' || l.atMarker '.' || l.char 0 == '#' then return (f, stop)
    let (f, stop) ← plainWord (← budget) f stop
    let c ← look 0
    if !(isBlank c || isBreak c) then return (f, stop)
    ensure 1
    let f ← scalarBlanks (some (indent, start)) (← budget) f
    let l ← get
    if l.flowLevel == 0 && (l.mark.column : Int) < indent then return (f, stop)
    plainRuns indent start fuel f stop

/-- A plain scalar, which may be a simple key. A scalar that ends after a
line break allows a key to follow. -/
def plainScalar : Lex Unit := do
  saveKey
  allowKey false
  let l ← get
  let start := l.mark
  let (f, stop) ← plainRuns (l.indent + 1) start (← budget) {} start
  if f.leadingBlanks then allowKey true
  append (.scalar f.text .plain) start stop

/-- The escape `\c` of a double-quoted scalar: the character it stands for,
or how many hexadecimal digits follow. -/
def escapeOf (c : Char) : Option (Char ⊕ Nat) :=
  match c with
  | '0' => some (.inl '\x00')
  | 'a' => some (.inl '\x07')
  | 'b' => some (.inl '\x08')
  | 't' | '\t' => some (.inl '\t')
  | 'n' => some (.inl '\n')
  | 'v' => some (.inl '\x0b')
  | 'f' => some (.inl '\x0c')
  | 'r' => some (.inl '\r')
  | 'e' => some (.inl '\x1b')
  | ' ' => some (.inl ' ')
  | '"' => some (.inl '"')
  | '\'' => some (.inl '\'')
  | '\\' => some (.inl '\\')
  | 'N' => some (.inl '\x85')
  | '_' => some (.inl '\xa0')
  | 'L' => some (.inl '\u2028')
  | 'P' => some (.inl '\u2029')
  | 'x' => some (.inr 2)
  | 'u' => some (.inr 4)
  | 'U' => some (.inr 8)
  | _ => none

/-- The value of `n` hexadecimal digits ahead. -/
def hexDigits (start : Mark) (n : Nat) : Lex Nat := do
  let l ← get
  (List.range n).foldlM (fun v k => match hexValue (l.char k) with
    | some d => pure (v * 16 + d)
    | none => throw (.scanning start l.mark "did not find expected hexdecimal number")) 0

/-- The characters of a quoted scalar up to a blank, a line break or the
closing quote; an escaped line break ends the run with held-back blanks. -/
def quotedWord (single : Bool) (start : Mark) : Nat → Folding → Lex Folding
  | 0, f => pure f
  | fuel + 1, f => do
    let l ← get
    let c := l.char 0
    let n := l.char 1
    if isSpacing c then return f
    if single && c == '\'' && n == '\'' then
      skip
      skip
      ensure 2
      quotedWord single start fuel { f with text := f.text.push '\'' }
    else if (single && c == '\'') || (!single && c == '"') then return f
    else if !single && c == '\\' && isBreak n then
      ensure 3
      skip
      skipLine
      return { f with leadingBlanks := true }
    else if !single && c == '\\' then
      match escapeOf n with
      | none => throw (.scanning start l.mark "found unknown escape character")
      | some e =>
        skip
        skip
        let text ← match e with
          | .inl ch => pure (f.text.push ch)
          | .inr len => do
            ensure len
            let v ← hexDigits start len
            if (0xD800 ≤ v && v ≤ 0xDFFF) || v > 0x10FFFF then
              throw (.scanning start (← here) "found invalid Unicode character escape code")
            for _ in List.range len do skip
            pure (f.text.push (Char.ofNat v))
        ensure 2
        quotedWord single start fuel { f with text := text }
    else
      let text ← read f.text
      ensure 2
      quotedWord single start fuel { f with text := text }

/-- The runs of a quoted scalar up to its closing quote; a document marker or
the end inside it is an error. -/
def quotedRuns (single : Bool) (start : Mark) : Nat → Folding → Lex Folding
  | 0, f => pure f
  | fuel + 1, f => do
    ensure 4
    let l ← get
    if l.atMarker '-' || l.atMarker '.' then
      throw (.scanning start l.mark "found unexpected document indicator")
    if isEnd (l.char 0) then throw (.scanning start l.mark "found unexpected end of stream")
    let f ← quotedWord single start (← budget) { f with leadingBlanks := false }
    ensure 1
    let c ← look 0
    if (single && c == '\'') || (!single && c == '"') then return f
    let f ← scalarBlanks none (← budget) f
    quotedRuns single start fuel f.join

/-- A single- or double-quoted scalar, which may be a simple key. -/
def flowScalar (single : Bool) : Lex Unit := do
  saveKey
  allowKey false
  let start ← here
  skip
  let f ← quotedRuns single start (← budget) {}
  skip
  append (.scalar f.text (if single then .single else .double)) start (← here)

/-- Pass the indentation spaces of a block scalar's line. -/
def indentSpaces (indent : Nat) : Nat → Lex Unit
  | 0 => pure ()
  | fuel + 1 => do
    let l ← get
    if (indent == 0 || l.mark.column < indent) && l.char 0 == ' ' then
      skip
      ensure 1
      indentSpaces indent fuel

/-- Pass indentation and empty lines inside a block scalar, keeping their
line breaks; the deepest indentation seen and where the last break ended. -/
def blockBreaksFrom (indent : Nat) (start : Mark) : Nat → Nat → String → Mark → Lex (Nat × String × Mark)
  | 0, deepest, breaks, stop => pure (deepest, breaks, stop)
  | fuel + 1, deepest, breaks, stop => do
    ensure 1
    indentSpaces indent (← budget)
    let l ← get
    let deepest := max deepest l.mark.column
    if (indent == 0 || l.mark.column < indent) && l.char 0 == '\t' then
      throw (.scanning start l.mark "found a tab character where an indentation space is expected")
    if !isBreak (l.char 0) then return (deepest, breaks, stop)
    ensure 2
    let breaks ← readLine breaks
    blockBreaksFrom indent start fuel deepest breaks (← here)

/-- Pass indentation and empty lines; an indentation not yet known becomes
the deepest seen, at least one more than the enclosing level and at least 1. -/
def blockBreaks (indent : Nat) (breaks : String) (start : Mark) : Lex (Nat × String × Mark) := do
  let (deepest, breaks, stop) ← blockBreaksFrom indent start (← budget) 0 breaks (← here)
  if indent == 0 then
    let enclosing := (← get).indent + 1
    return (max 1 (max deepest enclosing.toNat), breaks, stop)
  return (indent, breaks, stop)

/-- The lines of a block scalar at column `indent`: the text, the line break
after the last line and the empty lines after it. A folded scalar joins two
lines by a space unless one of them starts with a blank or empty lines stand
between them. -/
def blockLines (literal : Bool) (indent : Nat) (start : Mark) :
    Nat → String → String → String → Bool → Mark → Lex (String × String × String × Mark)
  | 0, text, lead, trail, _, stop => pure (text, lead, trail, stop)
  | fuel + 1, text, lead, trail, leadingBlank, stop => do
    let l ← get
    if !(l.mark.column == indent && !isEnd (l.char 0)) then return (text, lead, trail, stop)
    let trailingBlank := isBlank (l.char 0)
    let text :=
      if !literal && !leadingBlank && !trailingBlank && lead.startsWith "\n" then
        (if trail.isEmpty then text.push ' ' else text)
      else text ++ lead
    let text ← lineRest (text ++ trail) (← budget)
    ensure 2
    let lead ← readLine ""
    let (_, trail, stop) ← blockBreaks indent "" start
    blockLines literal indent start fuel text lead trail trailingBlank stop
where
  /-- The rest of a line. -/
  lineRest (s : String) : Nat → Lex String
    | 0 => pure s
    | fuel + 1 => do
      if isBreakOrEnd (← look 0) then pure s
      else
        let s ← read s
        ensure 1
        lineRest s fuel

/-- The indicators after `|` or `>`: a chomping sign and an indentation digit
from 1 to 9, in either order. -/
def blockHeader (start : Mark) : Lex (Int × Nat) := do
  let c ← look 0
  if c == '+' || c == '-' then
    skip
    ensure 1
    let d ← look 0
    let chomp : Int := if c == '+' then 1 else -1
    if d.isDigit then
      if d == '0' then throw (.scanning start (← here) "found an indentation indicator equal to 0")
      skip
      pure (chomp, d.toNat - 48)
    else pure (chomp, 0)
  else if c.isDigit then
    if c == '0' then throw (.scanning start (← here) "found an indentation indicator equal to 0")
    skip
    ensure 1
    let e ← look 0
    if e == '+' || e == '-' then
      skip
      pure (if e == '+' then 1 else -1, c.toNat - 48)
    else pure (0, c.toNat - 48)
  else pure (0, 0)

/-- A block scalar: `|` keeps line breaks, `>` folds them; `-` drops the
final line break, `+` keeps the empty lines after it, and by default only
the final break stays. -/
def blockScalar (literal : Bool) : Lex Unit := do
  removeKey
  allowKey true
  let start ← here
  skip
  ensure 1
  let (chomping, increment) ← blockHeader start
  ensure 1
  skipBlanks (← budget)
  if (← look 0) == '#' then
    trailingComment
    skipToBreak (← budget)
  if !isBreakOrEnd (← look 0) then
    throw (.scanning start (← here) "did not find expected comment or line break")
  if isBreak (← look 0) then
    ensure 2
    skipLine
  let enclosing := (← get).indent
  let indent := if increment > 0 then (if enclosing ≥ 0 then enclosing.toNat + increment else increment) else 0
  let (indent, breaks, stop) ← blockBreaks indent "" start
  ensure 1
  let (text, lead, trail, stop) ← blockLines literal indent start (← budget) "" "" breaks false stop
  let text := if chomping != -1 then text ++ lead else text
  let text := if chomping == 1 then text ++ trail else text
  append (.scalar text (if literal then .literal else .folded)) start stop

/-! ## The next token -/

/-- Whether a plain scalar starts here: not at a blank or an indicator,
except `-` before a character that is not blank, and in block context `?`
and `:` before one that is not blank. -/
def plainStarts (l : Lexer) : Bool :=
  let c := l.char 0
  let n := l.char 1
  !(isSpacing c || indicators.contains c) || (c == '-' && !isBlank n) ||
    (l.flowLevel == 0 && (c == '?' || c == ':') && !isSpacing n)

/-- Read the next token into the queue. -/
def fetchToken : Lex Unit := do
  ensure 1
  if !(← get).started then
    streamStart
    return
  let scanMark ← here
  toNextToken (← budget)
  unrollIndent (← here).column scanMark
  ensure 4
  let l ← get
  let c := l.char 0
  if isEnd c then streamEnd
  else if l.mark.column == 0 && c == '%' then directive
  else if l.atMarker '-' then documentIndicator .documentStart
  else if l.atMarker '.' then documentIndicator .documentEnd
  else
    let n := l.char 1
    if c == '[' then collectionStart .flowSequenceStart
    else if c == '\x7b' then collectionStart .flowMappingStart
    else if c == ']' then collectionEnd .flowSequenceEnd
    else if c == '\x7d' then collectionEnd .flowMappingEnd
    else if c == ',' then flowEntry
    else if c == '-' && isSpacing n then blockEntry
    else if c == '?' && (l.flowLevel > 0 || isSpacing n) then keyIndicator
    else if c == ':' && (l.flowLevel > 0 || isSpacing n) then valueIndicator
    else if c == '*' then anchorOrAlias true
    else if c == '&' then anchorOrAlias false
    else if c == '!' then tagToken
    else if c == '|' && l.flowLevel == 0 then blockScalar true
    else if c == '>' && l.flowLevel == 0 then blockScalar false
    else if c == '\'' then flowScalar true
    else if c == '"' then flowScalar false
    else if plainStarts l then plainScalar
    else throw (.scanning l.mark l.mark "found character that cannot start any token")
    if ((← get).tokens.back?.map (·.kind)) != some .blockEntry then trailingComment

/-- Read tokens until at least three wait and the first of them can no longer
become a key. -/
def fetchMore : Nat → Lex Unit
  | 0 => modify fun l => { l with ready := true }
  | fuel + 1 => do
    let l ← get
    if l.head + 2 < l.tokens.size then
      match l.keyOfToken.lookup l.taken with
      | none => modify fun l => { l with ready := true }
      | some i =>
        if ← keyValid i then
          fetchToken
          fetchMore fuel
        else modify fun l => { l with ready := true }
    else
      fetchToken
      fetchMore fuel

/-- The next token, read if need be. -/
def peekToken : Lex Token := do
  if !(← get).ready then fetchMore ((← budget) + 8)
  let l ← get
  return l.tokens.getD l.head default

/-- Hand out the next token. -/
def skipToken : Lex Unit := modify fun l =>
  { l with ready := false, taken := l.taken + 1, head := l.head + 1,
           finished := (l.tokens.getD l.head default).kind == .streamEnd }

end Lex

end HotLoop.Yaml
