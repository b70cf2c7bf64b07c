import TreeAudit.Yaml.Token

/-!
Events: a YAML text as the beginnings and ends of its documents and collections, with
scalars and aliases between them. Which tokens may come next depends on the collection
that is open, so the reader of events keeps what it expects, and what it expects when
that is over.
-/

set_option autoImplicit false
set_option relaxedAutoImplicit false

namespace TreeAudit.Yaml

/-- What a node may carry: a name to refer to it, and its full tag. -/
structure Properties where
  anchor : Option (List Char) := none
  tag : Option (List Char) := none
deriving DecidableEq

inductive Event where
  | streamStart
  | streamEnd
  | documentStart
  | documentEnd
  | alias (name : List Char)
  | scalar (properties : Properties) (text : List Char) (style : ScalarStyle)
  | sequenceStart (properties : Properties)
  | sequenceEnd
  | mappingStart (properties : Properties)
  | mappingEnd
deriving DecidableEq

namespace Event

def emptyScalar (properties : Properties) : Event := scalar properties [] .plain

end Event

/-- What is expected next. -/
inductive Expectation where
  | streamStart
  | implicitDocument
  | document
  | documentContent
  | documentEnd
  | blockNode
  | firstBlockEntry
  | blockEntry
  | indentlessEntry
  | firstBlockKey
  | blockKey
  | blockValue
  | firstFlowEntry
  | flowEntry
  | pairKey
  | pairValue
  | pairEnd
  | firstFlowKey
  | flowKey
  | flowValue
  | flowEmptyValue
  | nothing
deriving DecidableEq

/-- A reader of events. -/
structure Events where
  tokens : Tokens
  expected : Expectation
  /-- What is expected when that is over. -/
  later : List Expectation
  /-- Where the open collections began. -/
  begun : List Mark
  /-- What tag handles stand for in this document. -/
  handles : List (List Char × List Char)

namespace Events

def ofSource (source : Source) : Events := ⟨.ofSource source, .streamStart, [], [], []⟩

/-- Steps of a reader. -/
abbrev Step := StateT Events (Except Fault)

abbrev Placed := Event × Mark

def peek : Step Token := do
  let events ← get
  let (token, tokens) ← events.tokens.peek
  set { events with tokens := tokens }
  return token

def drop : Step Unit := modify fun events ↦ { events with tokens := events.tokens.drop }

def expect (expected : Expectation) : Step Unit :=
  modify fun events ↦ { events with expected := expected }

/-- What to expect when the next node is over. -/
def expectLater (expected : Expectation) : Step Unit :=
  modify fun events ↦ { events with later := expected :: events.later }

/-- A node is over. -/
def expectFormer : Step Unit :=
  modify fun events ↦
    match events.later with
    | expected :: rest => { events with expected := expected, later := rest }
    | [] => { events with expected := .nothing }

def begin (mark : Mark) : Step Unit :=
  modify fun events ↦ { events with begun := mark :: events.begun }

/-- Forgets where the innermost collection began, and tells it. -/
def leave : Step Mark := do
  let events ← get
  set { events with begun := events.begun.drop 1 }
  return events.begun.head?.getD {}

def fail {α : Type} (problem : String) (mark : Mark) : Step α :=
  throw { problem := problem, mark := mark }

def failIn {α : Type} (context : String) (start : Mark) (problem : String) (mark : Mark) :
    Step α :=
  throw { problem := problem, mark := mark, context := some (context, start) }

/-- A node that is not written. -/
def absent (mark : Mark) (expected : Expectation) : Step Placed := do
  expect expected
  return (.emptyScalar {}, mark)

/-! ### Documents -/

def defaultHandles : List (List Char × List Char) :=
  [(['!'], ['!']), (['!', '!'], "tag:yaml.org,2002:".toList)]

def addHandle (handle lead : List Char) (mark : Mark) : Step Unit := do
  let events ← get
  if events.handles.any fun h ↦ h.1 = handle then fail "found duplicate %TAG directive" mark
  else set { events with handles := events.handles ++ [(handle, lead)] }

def directives : (fuel : Nat) → (versioned : Bool) → Step Unit
  | 0, _ => return
  | fuel + 1, versioned => do
    let token ← peek
    match token.kind with
    | .directive (.version major minor) =>
      if versioned then fail "found duplicate %YAML directive" token.start
      else if major ≠ 1 || (minor ≠ 1 && minor ≠ 2) then
        fail "found incompatible YAML document" token.start
      else
        drop
        directives fuel true
    | .directive (.tag handle lead) =>
      addHandle handle lead token.start
      drop
      directives fuel versioned
    | _ =>
      modify fun events ↦
        let missing := defaultHandles.filter fun h ↦ !events.handles.any fun g ↦ g.1 = h.1
        { events with handles := events.handles ++ missing }

/-- Reads the directives before a document; each of them takes up some of the text. -/
def readDirectives : Step Unit := do
  let events ← get
  directives (events.tokens.source.rest.length + events.tokens.queue.length + 1) false

def isDirective : Token.Kind → Bool
  | .directive _ => true
  | _ => false

def skipDocumentEnds : (fuel : Nat) → Step Unit
  | 0 => return
  | fuel + 1 => do
    if (← peek).kind = .documentEnd then
      drop
      skipDocumentEnds fuel

/-- The first document may begin without a mark. -/
def documentStart (implicit : Bool) : Step Placed := do
  if !implicit then
    let events ← get
    skipDocumentEnds (events.tokens.source.rest.length + events.tokens.queue.length + 1)
  let token ← peek
  if token.kind = .streamEnd then
    drop
    expect .nothing
    return (.streamEnd, token.start)
  else if implicit && !isDirective token.kind && token.kind ≠ .documentStart then
    readDirectives
    expectLater .documentEnd
    expect .blockNode
    return (.documentStart, token.start)
  else
    readDirectives
    let opening ← peek
    if opening.kind ≠ .documentStart then
      fail "did not find expected <document start>" opening.start
    drop
    expectLater .documentEnd
    expect .documentContent
    return (.documentStart, token.start)

def documentEnd : Step Placed := do
  let token ← peek
  if token.kind = .documentEnd then drop
  modify fun events ↦ { events with handles := [] }
  expect .document
  return (.documentEnd, token.start)

/-! ### Nodes -/

/-- The full tag that a handle and the rest of a tag stand for. -/
def resolveTag (tag : Tag) (start mark : Mark) : Step (List Char) := do
  if tag.handle.isEmpty then return tag.rest
  match (← get).handles.find? fun h ↦ h.1 = tag.handle with
  | some (_, lead) => return lead ++ tag.rest
  | none => failIn "while parsing a node" start "found undefined tag handle" mark

def readAnchor : Step (Option (List Char)) := do
  match (← peek).kind with
  | .anchor name =>
    drop
    return some name
  | _ => return none

def readTag : Step (Option (Tag × Mark)) := do
  let token ← peek
  match token.kind with
  | .tag tag =>
    drop
    return some (tag, token.start)
  | _ => return none

/-- Reads the anchor and the tag of a node, in either order. -/
def readProperties : Step Properties := do
  let start := (← peek).start
  let before ← readAnchor
  let tag ← readTag
  let anchor ← if before.isNone && tag.isSome then readAnchor else pure before
  match tag with
  | none => return ⟨anchor, none⟩
  | some (tag, mark) => return ⟨anchor, some (← resolveTag tag start mark)⟩

/-- A node. In a block, collections may be spread over lines; as the value of a mapping,
the entries of a sequence need not be indented. -/
def node (block indentless : Bool) : Step Placed := do
  let first ← peek
  match first.kind with
  | .alias name =>
    drop
    expectFormer
    return (.alias name, first.start)
  | _ =>
    let start := first.start
    let properties ← readProperties
    let token ← peek
    match token.kind with
    | .scalar text style =>
      drop
      expectFormer
      return (.scalar properties text style, start)
    | .flowSequenceStart =>
      expect .firstFlowEntry
      return (.sequenceStart properties, start)
    | .flowMappingStart =>
      expect .firstFlowKey
      return (.mappingStart properties, start)
    | kind =>
      if indentless && kind = .blockEntry then
        expect .indentlessEntry
        return (.sequenceStart properties, start)
      else if block && kind = .blockSequenceStart then
        expect .firstBlockEntry
        return (.sequenceStart properties, start)
      else if block && kind = .blockMappingStart then
        expect .firstBlockKey
        return (.mappingStart properties, start)
      else if properties ≠ {} then
        expectFormer
        return (.emptyScalar properties, start)
      else
        failIn (if block then "while parsing a block node" else "while parsing a flow node")
          start "did not find expected node content" token.start

def documentContent : Step Placed := do
  let token ← peek
  if isDirective token.kind || token.kind = .documentStart || token.kind = .documentEnd ||
      token.kind = .streamEnd then
    expectFormer
    return (.emptyScalar {}, token.start)
  else node true false

/-- A node after which `next` is expected, or its absence before one of the tokens
`ends`. -/
def nodeUnless (ends : List Token.Kind) (block indentless : Bool) (mark : Mark)
    (next : Expectation) : Step Placed := do
  if ends.contains (← peek).kind then absent mark next
  else
    expectLater next
    node block indentless

/-- Notes where a collection begins that has just been opened. -/
def openCollection : Step Unit := do
  begin (← peek).start
  drop

/-- The end of a collection at the next token. -/
def close (event : Event) : Step Placed := do
  let token ← peek
  drop
  expectFormer
  let _ ← leave
  return (event, token.start)

/-! ### Block collections -/

def blockEntry : Step Placed := do
  let token ← peek
  if token.kind = .blockEntry then
    drop
    nodeUnless [.blockEntry, .blockEnd] true false token.stop .blockEntry
  else if token.kind = .blockEnd then close .sequenceEnd
  else
    failIn "while parsing a block collection" (← leave) "did not find expected '-' indicator"
      token.start

def indentlessEntry : Step Placed := do
  let token ← peek
  if token.kind = .blockEntry then
    drop
    nodeUnless [.blockEntry, .key, .value, .blockEnd] true false token.stop .indentlessEntry
  else
    expectFormer
    return (.sequenceEnd, token.start)

def blockKey : Step Placed := do
  let token ← peek
  if token.kind = .key then
    drop
    nodeUnless [.key, .value, .blockEnd] true true token.stop .blockValue
  else if token.kind = .blockEnd then close .mappingEnd
  else
    failIn "while parsing a block mapping" (← leave) "did not find expected key" token.start

def blockValue : Step Placed := do
  let token ← peek
  if token.kind = .value then
    drop
    nodeUnless [.key, .value, .blockEnd] true true token.stop .blockKey
  else absent token.start .blockKey

/-! ### Flow collections -/

/-- Goes past the comma before an entry that is not the first. -/
def comma (first : Bool) (context problem : String) : Step Unit := do
  if !first then
    let token ← peek
    if token.kind = .flowEntry then drop
    else failIn context (← leave) problem token.start

def flowEntry (first : Bool) : Step Placed := do
  if (← peek).kind ≠ .flowSequenceEnd then
    comma first "while parsing a flow sequence" "did not find expected ',' or ']'"
  let token ← peek
  if token.kind = .flowSequenceEnd then close .sequenceEnd
  else if token.kind = .key then
    drop
    expect .pairKey
    return (.mappingStart {}, token.start)
  else
    expectLater .flowEntry
    node false false

/-- The key of a pair in a sequence. If it is not written the token after it is passed
over. -/
def pairKey : Step Placed := do
  let token ← peek
  if token.kind = .value || token.kind = .flowEntry || token.kind = .flowSequenceEnd then
    drop
    absent token.stop .pairValue
  else
    expectLater .pairValue
    node false false

def pairValue : Step Placed := do
  if (← peek).kind = .value then drop
  else return ← absent (← peek).start .pairEnd
  nodeUnless [.flowEntry, .flowSequenceEnd] false false (← peek).start .pairEnd

def pairEnd : Step Placed := do
  expect .flowEntry
  return (.mappingEnd, (← peek).start)

def flowKey (first : Bool) : Step Placed := do
  if (← peek).kind ≠ .flowMappingEnd then
    comma first "while parsing a flow mapping" "did not find expected ',' or '\x7d'"
  let token ← peek
  if token.kind = .flowMappingEnd then close .mappingEnd
  else if token.kind = .key then
    drop
    nodeUnless [.value, .flowEntry, .flowMappingEnd] false false (← peek).start .flowValue
  else
    expectLater .flowEmptyValue
    node false false

def flowValue : Step Placed := do
  if (← peek).kind = .value then drop
  else return ← absent (← peek).start .flowKey
  nodeUnless [.flowEntry, .flowMappingEnd] false false (← peek).start .flowKey

/-! ### The next event -/

def step (expected : Expectation) : Step Placed := do
  match expected with
  | .streamStart =>
    let token ← peek
    drop
    expect .implicitDocument
    return (.streamStart, token.start)
  | .implicitDocument => documentStart true
  | .document => documentStart false
  | .documentContent => documentContent
  | .documentEnd => documentEnd
  | .blockNode => node true false
  | .firstBlockEntry =>
    openCollection
    blockEntry
  | .blockEntry => blockEntry
  | .indentlessEntry => indentlessEntry
  | .firstBlockKey =>
    openCollection
    blockKey
  | .blockKey => blockKey
  | .blockValue => blockValue
  | .firstFlowEntry =>
    openCollection
    flowEntry true
  | .flowEntry => flowEntry false
  | .pairKey => pairKey
  | .pairValue => pairValue
  | .pairEnd => pairEnd
  | .firstFlowKey =>
    openCollection
    flowKey true
  | .flowKey => flowKey false
  | .flowValue => flowValue
  | .flowEmptyValue => absent (← peek).start .flowKey
  | .nothing => return (.streamEnd, {})

/-- The next event and its place, and the reader after it. -/
def next (events : Events) : Except Fault (Placed × Events) := (step events.expected).run events

end Events

end TreeAudit.Yaml
