import HotLoop.Text.Quote
/-!
# HotLoop.Text.Raw

Text kept as the bytes it is made of. Text read from a document is valid
UTF-8, but text decoded from base64 may be any bytes, and where it is quoted
in a message it is shown byte for byte.

Read from the front, raw text is a list of pieces: a character where the
bytes there encode one in UTF-8 (overlong forms, surrogates and code points
past `U+10FFFF` do not), else a single stray byte. Shown as plain text
(`RawText.lossy`) a stray byte becomes U+FFFD; quoted (`RawText.quote`) it is
written `\xNN`, and the characters are escaped as `Text.quote` escapes them.
-/

namespace HotLoop

/-- Text as its bytes, which need not be valid UTF-8. -/
structure RawText where
  bytes : List UInt8
  deriving DecidableEq, Inhabited, Repr

namespace RawText

/-- A piece of raw text: a character, or a byte that begins none. -/
inductive Piece where
  | char (c : Char)
  | stray (b : UInt8)
  deriving DecidableEq, Repr

/-- The bytes of a string. -/
def ofString (s : String) : RawText := ⟨s.toUTF8.toList⟩

/-- Whether the text has no bytes. -/
def isEmpty (t : RawText) : Bool := t.bytes.isEmpty

/-- The length of the UTF-8 encoding a first byte announces; 0 for a byte
that begins none. -/
def width (b : UInt8) : Nat :=
  if b < 0x80 then 1 else if b / 32 == 6 then 2 else if b / 16 == 14 then 3
  else if b / 8 == 30 then 4 else 0

/-- The piece at the head of `b :: rest`, and the bytes after it. -/
def headPiece (b : UInt8) (rest : List UInt8) : Piece × List UInt8 :=
  let w := width b
  if w = 0 then (.stray b, rest)
  else
    match String.fromUTF8? (ByteArray.mk (b :: rest.take (w - 1)).toArray) with
    | some s =>
      match s.toList with
      | [c] => (.char c, rest.drop (w - 1))
      | _ => (.stray b, rest)
    | none => (.stray b, rest)

/-- The pieces of some bytes, from the front; every step takes at least one
byte, so their number bounds the steps. -/
def piecesOf : Nat → List UInt8 → List Piece
  | 0, _ => []
  | _, [] => []
  | fuel + 1, b :: rest =>
    let (p, r) := headPiece b rest
    p :: piecesOf fuel r

/-- The pieces of raw text, from the front. -/
def pieces (t : RawText) : List Piece := piecesOf t.bytes.length t.bytes

/-- The text shown as a string: each stray byte becomes U+FFFD. -/
def lossy (t : RawText) : String :=
  String.ofList (t.pieces.map fun
    | .char c => c
    | .stray _ => '�')

/-- The text between double quotes, escaped as `Text.quote` escapes
characters; a stray byte is written `\xNN`. -/
def quote (t : RawText) : String :=
  "\"" ++ String.join (t.pieces.map fun
    | .char c => Text.escape c
    | .stray b => "\\x" ++ Text.hexPad b.toNat 2) ++ "\""

end RawText

end HotLoop
