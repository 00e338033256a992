import HotLoop.Yaml.Token.Lexer
/-!
# HotLoop.Yaml.Event

The events of a YAML text: the start and end of the stream, of each
document, sequence and mapping, and each scalar and alias, in document
order. They are read from the tokens one at a time by a state machine over
the grammar of the format, which keeps a stack of the states to return to and
the positions where the open collections began (their line is reported when
a collection is left unfinished).

Within a block mapping a key or value may be missing, which reads as an
empty scalar; so may an entry of a block sequence. A block sequence that is
a mapping's value may stand at the mapping's own indentation. Tags are
spelled out through the document's `%TAG` directives and the two standard
handles `!` and `!!`.
-/

namespace HotLoop.Yaml

/-- What an event is; an absent anchor or tag is empty. -/
inductive EventKind where
  | streamStart
  | streamEnd
  | documentStart
  | documentEnd
  | alias (name : String)
  | scalar (anchor tag text : String) (style : Style)
  | sequenceStart (anchor tag : String) (flow : Bool)
  | sequenceEnd
  | mappingStart (anchor tag : String) (flow : Bool)
  | mappingEnd
  deriving Inhabited, Repr, DecidableEq

/-- An event and where it starts. -/
structure Event where
  kind : EventKind
  start : Mark
  deriving Inhabited, Repr

/-- What the event reader expects next. -/
inductive Expect where
  | streamStart
  | implicitDocumentStart
  | documentStart
  | documentContent
  | documentEnd
  | blockNode
  | blockNodeOrIndentlessSequence
  | flowNode
  | blockSequenceFirstEntry
  | blockSequenceEntry
  | indentlessSequenceEntry
  | blockMappingFirstKey
  | blockMappingKey
  | blockMappingValue
  | flowSequenceFirstEntry
  | flowSequenceEntry
  | flowSequenceEntryMappingKey
  | flowSequenceEntryMappingValue
  | flowSequenceEntryMappingEnd
  | flowMappingFirstKey
  | flowMappingKey
  | flowMappingValue
  | flowMappingEmptyValue
  | done
  deriving Inhabited, Repr, DecidableEq

/-- The state of reading events. -/
structure EventReader where
  lexer : Lexer
  expect : Expect := .streamStart
  /-- What to expect after the current node, innermost first. -/
  resume : List Expect := []
  /-- Where the open collections began, innermost first. -/
  marks : List Mark := []
  /-- The tag handles of the current document and their prefixes. -/
  handles : List (String × String) := []
  deriving Inhabited

/-- Reading events: a failure ends it. -/
abbrev Events := EStateM Fault EventReader

namespace Events

/-- Run a step of the lexer. -/
def lexing {α : Type} (x : Lex α) : Events α := fun r =>
  let l := r.lexer
  let r := { r with lexer := default }
  match x l with
  | .ok a l => .ok a { r with lexer := l }
  | .error e l => .error e { r with lexer := l }

/-- The next token. -/
def peek : Events Token := lexing Lex.peekToken

/-- Use up the next token. -/
def advance : Events Unit := lexing Lex.skipToken

/-- Expect `e` next. -/
def goTo (e : Expect) : Events Unit := modify fun r => { r with expect := e }

/-- Expect `e` after the node that follows. -/
def pushState (e : Expect) : Events Unit := modify fun r => { r with resume := e :: r.resume }

/-- Return to what was expected before the current node. -/
def popState : Events Unit := modify fun r =>
  match r.resume with
  | e :: rest => { r with expect := e, resume := rest }
  | [] => r

/-- Remember where a collection began. -/
def pushMark (m : Mark) : Events Unit := modify fun r => { r with marks := m :: r.marks }

/-- Where the innermost open collection began. -/
def popMark : Events Mark := do
  let r ← get
  match r.marks with
  | m :: rest =>
    set { r with marks := rest }
    pure m
  | [] => pure {}

/-- An empty plain scalar at `m`. -/
def empty (m : Mark) : Event := ⟨.scalar "" "" "" .plain, m⟩

/-- The handles every document has: `!` and `!!`. -/
def standardHandles : List (String × String) := [("!", "!"), ("!!", "tag:yaml.org,2002:")]

/-- Whether a token is a directive. -/
def isDirective : TokenKind → Bool
  | .version .. | .tagDirective .. => true
  | _ => false

/-- The directives in front of a document; then the standard handles that
were not redefined. At most one `%YAML`, of version 1.1; no handle twice. -/
def directives (seenVersion : Bool) : Nat → Events Unit
  | 0 => pure ()
  | fuel + 1 => do
    let t ← peek
    match t.kind with
    | .version major minor =>
      if seenVersion then throw (.parsing {} t.start "found duplicate %YAML directive")
      if major != 1 || minor != 1 then throw (.parsing {} t.start "found incompatible YAML document")
      advance
      directives true fuel
    | .tagDirective handle uri =>
      if (← get).handles.any (·.1 == handle) then throw (.parsing {} t.start "found duplicate %TAG directive")
      modify fun r => { r with handles := r.handles ++ [(handle, uri)] }
      advance
      directives seenVersion fuel
    | _ => modify fun r =>
      { r with handles := r.handles ++ standardHandles.filter fun (h, _) => !r.handles.any (·.1 == h) }

/-- A bound on the steps of any loop over the tokens. -/
def budget : Events Nat := do return (← get).lexer.text.size + 8

/-- Use up `...` markers. -/
def skipDocumentEnds : Nat → Events Token
  | 0 => peek
  | fuel + 1 => do
    let t ← peek
    if t.kind == .documentEnd then
      advance
      skipDocumentEnds fuel
    else pure t

/-- The start of a document, or of the stream's end. The first document may
start without `---`; a later one must start with it. -/
def documentStart (implicit : Bool) : Events Event := do
  let t ← if implicit then peek else skipDocumentEnds (← budget)
  let plainStart := match t.kind with
    | .documentStart | .streamEnd => false
    | k => !isDirective k
  if implicit && plainStart then
    directives false (← budget)
    pushState .documentEnd
    goTo .blockNode
    return ⟨.documentStart, t.start⟩
  else if t.kind != .streamEnd then
    directives false (← budget)
    let t' ← peek
    if t'.kind != .documentStart then throw (.parsing {} t'.start "did not find expected <document start>")
    pushState .documentEnd
    goTo .documentContent
    advance
    return ⟨.documentStart, t.start⟩
  else
    goTo .done
    advance
    return ⟨.streamEnd, t.start⟩

/-- The end of a document, with or without `...`. -/
def documentEnd : Events Event := do
  let t ← peek
  if t.kind == .documentEnd then advance
  modify fun r => { r with handles := [] }
  goTo .documentStart
  return ⟨.documentEnd, t.start⟩

/-- A node: an alias, or a scalar or collection with an optional anchor and
tag in either order; an anchor or tag alone is an empty scalar. In block
context a block collection may start here, and where `indentless` a block
sequence at the enclosing mapping's indentation. -/
def node (block indentless : Bool) : Events Event := do
  let t ← peek
  if let .alias name := t.kind then
    popState
    advance
    return ⟨.alias name, t.start⟩
  let start := t.start
  let (anchor, tag?, t) ← match t.kind with
    | .anchor a => do
      advance
      let t ← peek
      if let .tag h s := t.kind then
        advance
        pure (a, some (h, s, t.start), ← peek)
      else pure (a, none, t)
    | .tag h s => do
      advance
      let t' ← peek
      if let .anchor a := t'.kind then
        advance
        pure (a, some (h, s, t.start), ← peek)
      else pure ("", some (h, s, t.start), t')
    | _ => pure ("", none, t)
  let tag ← match tag? with
    | none => pure ""
    | some ("", s, _) => pure s
    | some (h, s, m) =>
      match (← get).handles.lookup h with
      | some pre => if (pre ++ s).isEmpty then throw (.parsing start m "found undefined tag handle") else pure (pre ++ s)
      | none => throw (.parsing start m "found undefined tag handle")
  if indentless && t.kind == .blockEntry then
    goTo .indentlessSequenceEntry
    return ⟨.sequenceStart anchor tag false, start⟩
  match t.kind with
  | .scalar text style =>
    popState
    advance
    return ⟨.scalar anchor tag text style, start⟩
  | .flowSequenceStart =>
    goTo .flowSequenceFirstEntry
    return ⟨.sequenceStart anchor tag true, start⟩
  | .flowMappingStart =>
    goTo .flowMappingFirstKey
    return ⟨.mappingStart anchor tag true, start⟩
  | .blockSequenceStart =>
    if block then
      goTo .blockSequenceFirstEntry
      return ⟨.sequenceStart anchor tag false, start⟩
  | .blockMappingStart =>
    if block then
      goTo .blockMappingFirstKey
      return ⟨.mappingStart anchor tag false, start⟩
  | _ => pure ()
  if !anchor.isEmpty || !tag.isEmpty then
    popState
    return ⟨.scalar anchor tag "" .plain, start⟩
  throw (.parsing start t.start "did not find expected node content")

/-- An entry of a block sequence, or its end. -/
def blockSequenceEntry (first : Bool) : Events Event := do
  if first then
    pushMark (← peek).start
    advance
  let t ← peek
  match t.kind with
  | .blockEntry =>
    advance
    let t' ← peek
    if t'.kind != .blockEntry && t'.kind != .blockEnd then
      pushState .blockSequenceEntry
      node true false
    else
      goTo .blockSequenceEntry
      return empty t.stop
  | .blockEnd =>
    popState
    let _ ← popMark
    advance
    return ⟨.sequenceEnd, t.start⟩
  | _ => throw (.parsing (← popMark) t.start "did not find expected '-' indicator")

/-- An entry of a block sequence at its mapping's indentation, or its end. -/
def indentlessSequenceEntry : Events Event := do
  let t ← peek
  if t.kind == .blockEntry then
    advance
    let t' ← peek
    if t'.kind != .blockEntry && t'.kind != .key && t'.kind != .value && t'.kind != .blockEnd then
      pushState .indentlessSequenceEntry
      node true false
    else
      goTo .indentlessSequenceEntry
      return empty t.stop
  else
    popState
    return ⟨.sequenceEnd, t.start⟩

/-- A key of a block mapping, or its end. -/
def blockMappingKey (first : Bool) : Events Event := do
  if first then
    pushMark (← peek).start
    advance
  let t ← peek
  match t.kind with
  | .key =>
    advance
    let t' ← peek
    if t'.kind != .key && t'.kind != .value && t'.kind != .blockEnd then
      pushState .blockMappingValue
      node true true
    else
      goTo .blockMappingValue
      return empty t.stop
  | .blockEnd =>
    popState
    let _ ← popMark
    advance
    return ⟨.mappingEnd, t.start⟩
  | _ => throw (.parsing (← popMark) t.start "did not find expected key")

/-- A value of a block mapping. -/
def blockMappingValue : Events Event := do
  let t ← peek
  if t.kind == .value then
    advance
    let t' ← peek
    if t'.kind != .key && t'.kind != .value && t'.kind != .blockEnd then
      pushState .blockMappingKey
      node true true
    else
      goTo .blockMappingKey
      return empty t.stop
  else
    goTo .blockMappingKey
    return empty t.start

/-- An entry of a flow sequence, or its end; `key: value` inside one is a
mapping of one pair. -/
def flowSequenceEntry (first : Bool) : Events Event := do
  if first then
    pushMark (← peek).start
    advance
  let t ← peek
  let t ← if t.kind != .flowSequenceEnd && !first then
      if t.kind == .flowEntry then do
        advance
        peek
      else throw (.parsing (← popMark) t.start "did not find expected ',' or ']'")
    else pure t
  if t.kind == .key then
    goTo .flowSequenceEntryMappingKey
    advance
    return ⟨.mappingStart "" "" true, t.start⟩
  else if t.kind != .flowSequenceEnd then
    pushState .flowSequenceEntry
    node false false
  else
    popState
    let _ ← popMark
    advance
    return ⟨.sequenceEnd, t.start⟩

/-- The key of a one-pair mapping inside a flow sequence. -/
def flowSequenceEntryMappingKey : Events Event := do
  let t ← peek
  if t.kind != .value && t.kind != .flowEntry && t.kind != .flowSequenceEnd then
    pushState .flowSequenceEntryMappingValue
    node false false
  else
    advance
    goTo .flowSequenceEntryMappingValue
    return empty t.stop

/-- The value of a one-pair mapping inside a flow sequence. -/
def flowSequenceEntryMappingValue : Events Event := do
  let t ← peek
  if t.kind == .value then
    advance
    let t' ← peek
    if t'.kind != .flowEntry && t'.kind != .flowSequenceEnd then
      pushState .flowSequenceEntryMappingEnd
      return ← node false false
  goTo .flowSequenceEntryMappingEnd
  return empty t.start

/-- The end of a one-pair mapping inside a flow sequence. -/
def flowSequenceEntryMappingEnd : Events Event := do
  let t ← peek
  goTo .flowSequenceEntry
  return ⟨.mappingEnd, t.start⟩

/-- A key of a flow mapping, or its end. -/
def flowMappingKey (first : Bool) : Events Event := do
  if first then
    pushMark (← peek).start
    advance
  let t ← peek
  let t ← if t.kind != .flowMappingEnd && !first then
      if t.kind == .flowEntry then do
        advance
        peek
      else throw (.parsing (← popMark) t.start "did not find expected ',' or '\x7d'")
    else pure t
  if t.kind == .key then
    advance
    let t' ← peek
    if t'.kind != .value && t'.kind != .flowEntry && t'.kind != .flowMappingEnd then
      pushState .flowMappingValue
      node false false
    else
      goTo .flowMappingValue
      return empty t'.start
  else if t.kind != .flowMappingEnd then
    pushState .flowMappingEmptyValue
    node false false
  else
    popState
    let _ ← popMark
    advance
    return ⟨.mappingEnd, t.start⟩

/-- A value of a flow mapping; a key written without `:` has an empty one. -/
def flowMappingValue (emptyValue : Bool) : Events Event := do
  let t ← peek
  if emptyValue then
    goTo .flowMappingKey
    return empty t.start
  if t.kind == .value then
    advance
    let t' ← peek
    if t'.kind != .flowEntry && t'.kind != .flowMappingEnd then
      pushState .flowMappingKey
      node false false
    else
      goTo .flowMappingKey
      return empty t'.start
  else
    goTo .flowMappingKey
    return empty t.start

/-- The start of the stream. -/
def streamStart : Events Event := do
  let t ← peek
  if t.kind != .streamStart then throw (.parsing {} t.start "did not find expected <stream-start>")
  goTo .implicitDocumentStart
  advance
  return ⟨.streamStart, t.start⟩

/-- The content of a document that started with `---`: a node, or an empty
scalar when the document holds none. -/
def documentContent : Events Event := do
  let t ← peek
  match t.kind with
  | .version .. | .tagDirective .. | .documentStart | .documentEnd | .streamEnd =>
    popState
    return empty t.start
  | _ => node true false

/-- The next event. After the end of the stream there are no more: the end
is given again. -/
def next : Events Event := do
  let r ← get
  if r.lexer.finished then return ⟨.streamEnd, r.lexer.mark⟩
  match r.expect with
  | .streamStart => streamStart
  | .implicitDocumentStart => documentStart true
  | .documentStart => documentStart false
  | .documentContent => documentContent
  | .documentEnd => documentEnd
  | .blockNode => node true false
  | .blockNodeOrIndentlessSequence => node true true
  | .flowNode => node false false
  | .blockSequenceFirstEntry => blockSequenceEntry true
  | .blockSequenceEntry => blockSequenceEntry false
  | .indentlessSequenceEntry => indentlessSequenceEntry
  | .blockMappingFirstKey => blockMappingKey true
  | .blockMappingKey => blockMappingKey false
  | .blockMappingValue => blockMappingValue
  | .flowSequenceFirstEntry => flowSequenceEntry true
  | .flowSequenceEntry => flowSequenceEntry false
  | .flowSequenceEntryMappingKey => flowSequenceEntryMappingKey
  | .flowSequenceEntryMappingValue => flowSequenceEntryMappingValue
  | .flowSequenceEntryMappingEnd => flowSequenceEntryMappingEnd
  | .flowMappingFirstKey => flowMappingKey true
  | .flowMappingKey => flowMappingKey false
  | .flowMappingValue => flowMappingValue false
  | .flowMappingEmptyValue => flowMappingValue true
  | .done => return ⟨.streamEnd, r.lexer.mark⟩

end Events

end HotLoop.Yaml
