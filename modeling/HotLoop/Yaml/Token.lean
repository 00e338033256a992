/-!
# HotLoop.Yaml.Token

The tokens a YAML text splits into, the positions they are found at, and the
failures of reading YAML.

A position (`Mark`) counts characters from the start of the text (a byte
order mark at the very start is not counted), with a 0-based line and column.

A failure is reported as `yaml: line N: problem`, where the line is the one
where the construct in trouble began, or else the one of the problem itself.
Problems found while splitting the text into tokens give that line 1-based;
problems found while putting tokens together give it 0-based, one less. A line
that comes out as 0 is left out, and so is every line of a problem with the
characters of the text.
-/

namespace HotLoop.Yaml

/-- A position in the text. -/
structure Mark where
  index : Nat := 0
  line : Nat := 0
  column : Nat := 0
  deriving Inhabited, Repr, DecidableEq

/-- How a scalar is written. -/
inductive Style where
  | plain
  | single
  | double
  /-- A block scalar that keeps its line breaks (`|`). -/
  | literal
  /-- A block scalar that folds its line breaks (`>`). -/
  | folded
  deriving Inhabited, Repr, DecidableEq

/-- What a token is. -/
inductive TokenKind where
  | streamStart
  | streamEnd
  /-- A `%YAML major.minor` directive. -/
  | version (major minor : Nat)
  /-- A `%TAG handle uri` directive. -/
  | tagDirective (handle uri : String)
  /-- `---` -/
  | documentStart
  /-- `...` -/
  | documentEnd
  | blockSequenceStart
  | blockMappingStart
  | blockEnd
  /-- `[` -/
  | flowSequenceStart
  /-- `]` -/
  | flowSequenceEnd
  /-- `{` -/
  | flowMappingStart
  /-- `}` -/
  | flowMappingEnd
  /-- `-` -/
  | blockEntry
  /-- `,` -/
  | flowEntry
  /-- `?`, or the start of a key written without it. -/
  | key
  /-- `:` -/
  | value
  /-- `*name` -/
  | alias (name : String)
  /-- `&name` -/
  | anchor (name : String)
  /-- `!handle!suffix`, `!suffix` or `!<uri>` (with an empty handle). -/
  | tag (handle suffix : String)
  | scalar (text : String) (style : Style)
  deriving Inhabited, Repr, DecidableEq

/-- A token with where it starts and ends. -/
structure Token where
  kind : TokenKind
  start : Mark
  stop : Mark
  deriving Inhabited, Repr

/-- Why a text could not be read as YAML. -/
inductive Fault where
  /-- A character the format does not allow anywhere. -/
  | reading (problem : String)
  /-- A problem splitting the text into tokens: where the construct in
  trouble began, and where the problem was found. -/
  | scanning (context found : Mark) (problem : String)
  /-- A problem putting the tokens together. -/
  | parsing (context found : Mark) (problem : String)
  /-- A problem building the document's tree or reading it into values. -/
  | building (problem : String)
  deriving Inhabited, Repr

namespace Fault

/-- The `line N: ` in front of a problem, nothing for line 0. -/
def lineText (n : Nat) : String :=
  if n = 0 then "" else "line " ++ toString n ++ ": "

/-- The line a problem is reported at: the context's line when it is not the
first, else the problem's. -/
def reportedLine (context found : Mark) : Nat :=
  if context.line ≠ 0 then context.line else found.line

/-- The text of a failure. -/
def message : Fault → String
  | .reading p => "yaml: " ++ p
  | .scanning c f p =>
    let l := reportedLine c f
    "yaml: " ++ lineText (if l = 0 then 0 else l + 1) ++ p
  | .parsing c f p => "yaml: " ++ lineText (reportedLine c f) ++ p
  | .building p => "yaml: " ++ p

end Fault

end HotLoop.Yaml
