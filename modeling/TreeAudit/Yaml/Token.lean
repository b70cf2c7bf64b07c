import TreeAudit.Yaml.Scalar.Block
import TreeAudit.Yaml.Scalar.Plain
import TreeAudit.Yaml.Tag

/-!
Tokens of a YAML text. A key is known as one only when the colon after it is met, so
tokens wait in a queue as long as the place of the first of them may turn out to be a
key's, and the tokens that open the key and its mapping are put before it then. A
simple key is confined to one line and to 1024 bytes.
-/

set_option autoImplicit false
set_option relaxedAutoImplicit false

namespace TreeAudit.Yaml

inductive ScalarStyle where
  | plain
  | singleQuoted
  | doubleQuoted
  | literal
  | folded
deriving DecidableEq

namespace Token

inductive Kind where
  | streamStart
  | streamEnd
  | directive (directive : Directive)
  | documentStart
  | documentEnd
  | blockSequenceStart
  | blockMappingStart
  | blockEnd
  | flowSequenceStart
  | flowSequenceEnd
  | flowMappingStart
  | flowMappingEnd
  | blockEntry
  | flowEntry
  | key
  | value
  | alias (name : List Char)
  | anchor (name : List Char)
  | tag (tag : Tag)
  | scalar (text : List Char) (style : ScalarStyle)
deriving DecidableEq

end Token

structure Token where
  kind : Token.Kind
  start : Mark
  stop : Mark

/-- A place where a simple key may begin: before the token of the given number. In a
block, where a key is the only thing that may begin there, it is required. -/
structure KeyPlace where
  required : Bool
  number : Nat
  mark : Mark

/-- The tokens of a text, read as far as needed. -/
structure Tokens where
  source : Source
  queue : List Token
  /-- How many tokens have been taken from the queue. -/
  taken : Nat
  started : Bool
  /-- The columns of the open blocks, the innermost first. -/
  blocks : List Nat
  keyAllowed : Bool
  /-- Where a key may have begun at this depth of brackets. -/
  keyPlace : Option KeyPlace
  /-- The same for the surrounding depths, the innermost first. -/
  outerPlaces : List (Option KeyPlace)

namespace Tokens

def ofSource (source : Source) : Tokens := ⟨source, [], 0, false, [], true, none, []⟩

def bracketed (tokens : Tokens) : Bool := !tokens.outerPlaces.isEmpty

def mark (tokens : Tokens) : Mark := tokens.source.mark

def column (tokens : Tokens) : Nat := tokens.source.mark.column

/-- The least column of what belongs to the innermost block. -/
def leastColumn (tokens : Tokens) : Nat :=
  match tokens.blocks with
  | [] => 0
  | column :: _ => column + 1

def push (tokens : Tokens) (token : Token) : Tokens :=
  { tokens with queue := tokens.queue ++ [token] }

/-- A token here that takes up no space. -/
def pushEmpty (tokens : Tokens) (kind : Token.Kind) : Tokens :=
  tokens.push ⟨kind, tokens.mark, tokens.mark⟩

/-- A token of so many characters. -/
def pushIndicator (tokens : Tokens) (kind : Token.Kind) (length : Nat) : Tokens :=
  let after := tokens.source.skip length
  { tokens with source := after }.push ⟨kind, tokens.mark, after.mark⟩

/-- A token that was read up to the place where `after` begins. -/
def pushRead (tokens : Tokens) (kind : Token.Kind) (after : Source) : Tokens :=
  { tokens with source := after }.push ⟨kind, tokens.mark, after.mark⟩

/-- Puts a token before the token of the given number. -/
def insertAt (tokens : Tokens) (number : Nat) (token : Token) : Tokens :=
  let place := number - tokens.taken
  { tokens with queue := tokens.queue.take place ++ token :: tokens.queue.drop place }

def missingColon (tokens : Tokens) (place : KeyPlace) : Fault :=
  tokens.source.fault "while scanning a simple key" place.mark "could not find expected ':'"

def longestKey : Nat := 1024

/-- A place where the key would already have had to end. -/
def isPast (tokens : Tokens) (place : KeyPlace) : Bool :=
  place.mark.line < tokens.mark.line || place.mark.index + longestKey < tokens.mark.index

/-- Gives up a place that no key can begin at any more. -/
def giveUpPast (tokens : Tokens) : Option KeyPlace → Except Fault (Option KeyPlace)
  | none => .ok none
  | some place =>
    if !tokens.isPast place then .ok (some place)
    else if place.required then .error (tokens.missingColon place)
    else .ok none

def dropPast (tokens : Tokens) : Except Fault Tokens := do
  let outer ← tokens.outerPlaces.reverse.mapM tokens.giveUpPast
  let place ← tokens.giveUpPast tokens.keyPlace
  return { tokens with keyPlace := place, outerPlaces := outer.reverse }

/-- Gives up the place at this depth. -/
def dropPlace (tokens : Tokens) : Except Fault Tokens :=
  match tokens.keyPlace with
  | none => .ok tokens
  | some place =>
    if place.required then .error (tokens.missingColon place)
    else .ok { tokens with keyPlace := none }

/-- Notes that a key may begin here. -/
def notePlace (tokens : Tokens) : Except Fault Tokens :=
  if tokens.keyAllowed then do
    let place : KeyPlace := {
      required := !tokens.bracketed && tokens.blocks.head? = some tokens.column
      number := tokens.taken + tokens.queue.length
      mark := tokens.mark }
    return { (← tokens.dropPlace) with keyPlace := some place }
  else .ok tokens

def allowKey (allowed : Bool) (tokens : Tokens) : Tokens := { tokens with keyAllowed := allowed }

/-- Whether a block at a column would be inside the innermost one. -/
def opensBlock (tokens : Tokens) (column : Nat) : Bool :=
  !tokens.bracketed && tokens.leastColumn ≤ column

/-- Opens a block here, if one is needed. -/
def openBlock (tokens : Tokens) (kind : Token.Kind) : Tokens :=
  if tokens.opensBlock tokens.column then
    { tokens with blocks := tokens.column :: tokens.blocks }.pushEmpty kind
  else tokens

/-- Opens a mapping at the place of its first key, if one is needed. -/
def openMappingAt (tokens : Tokens) (place : KeyPlace) : Tokens :=
  if tokens.opensBlock place.mark.column then
    { tokens with blocks := place.mark.column :: tokens.blocks }.insertAt place.number
      ⟨.blockMappingStart, place.mark, place.mark⟩
  else tokens

/-- Closes the blocks from `stays` on inwards that a column is outside of. -/
def closeBlocks (tokens : Tokens) (stays : Nat → Bool) : Tokens :=
  if tokens.bracketed then tokens
  else
    let closed := (tokens.blocks.takeWhile fun column ↦ !stays column).length
    { tokens with
      blocks := tokens.blocks.drop closed
      queue := tokens.queue ++
        List.replicate closed ⟨.blockEnd, tokens.mark, tokens.mark⟩ }

def closeAllBlocks (tokens : Tokens) : Tokens := tokens.closeBlocks fun _ ↦ false

/-- Goes past blanks, comments and line ends, and a byte order mark at the start of a
line. A tab is no blank where a key may begin in a block. -/
def skipGap : (fuel : Nat) → Tokens → Except Fault Tokens
  | 0, tokens => .ok tokens
  | fuel + 1, tokens => do
    let source := tokens.source
    source.need 1
    let source :=
      if source.mark.column = 0 && source.starts '\ufeff' then source.skip 1 else source
    let tabs := tokens.bracketed || !tokens.keyAllowed
    let source := (source.takeWhile fun c ↦ c = ' ' || (tabs && c = '\t')).2.skipComment
    source.need 1
    match source.next? with
    | some c =>
      if isBreak c then
        skipGap fuel { tokens with
          source := ← source.skipBreak
          keyAllowed := tokens.keyAllowed || !tokens.bracketed }
      else return { tokens with source := source }
    | none => return { tokens with source := source }

/-- The end of the text counts as the beginning of a line. -/
def pushStreamEnd (tokens : Tokens) : Except Fault Tokens := do
  let mark := tokens.mark
  let atLine := if mark.column = 0 then mark else ⟨mark.index, mark.line + 1, 0⟩
  let tokens := { tokens with source := { tokens.source with mark := atLine } }
  let tokens ← tokens.closeAllBlocks.dropPlace
  return (tokens.allowKey false).pushEmpty .streamEnd

def pushDirective (tokens : Tokens) : Except Fault Tokens := do
  let tokens := (← tokens.closeAllBlocks.dropPlace).allowKey false
  let (directive, after) ← Directive.read tokens.source
  return tokens.pushRead (.directive directive) after

def pushDocumentBorder (tokens : Tokens) (kind : Token.Kind) : Except Fault Tokens := do
  return ((← tokens.closeAllBlocks.dropPlace).allowKey false).pushIndicator kind 3

def pushFlowStart (tokens : Tokens) (kind : Token.Kind) : Except Fault Tokens := do
  let tokens ← tokens.notePlace
  let tokens := { tokens with
    keyPlace := none
    outerPlaces := tokens.keyPlace :: tokens.outerPlaces }
  return (tokens.allowKey true).pushIndicator kind 1

def pushFlowEnd (tokens : Tokens) (kind : Token.Kind) : Except Fault Tokens := do
  let tokens ← tokens.dropPlace
  let tokens := match tokens.outerPlaces with
    | place :: outer => { tokens with keyPlace := place, outerPlaces := outer }
    | [] => tokens
  return (tokens.allowKey false).pushIndicator kind 1

def pushFlowEntry (tokens : Tokens) : Except Fault Tokens := do
  return ((← tokens.dropPlace).allowKey true).pushIndicator .flowEntry 1

def pushBlockEntry (tokens : Tokens) : Except Fault Tokens := do
  if !tokens.bracketed && !tokens.keyAllowed then
    throw (tokens.source.faultHere "block sequence entries are not allowed in this context")
  let tokens ← (tokens.openBlock .blockSequenceStart).dropPlace
  return (tokens.allowKey true).pushIndicator .blockEntry 1

def pushKey (tokens : Tokens) : Except Fault Tokens := do
  if !tokens.bracketed && !tokens.keyAllowed then
    throw (tokens.source.faultHere "mapping keys are not allowed in this context")
  let tokens ← (tokens.openBlock .blockMappingStart).dropPlace
  return (tokens.allowKey !tokens.bracketed).pushIndicator .key 1

/-- A colon makes a key of what stands at the place noted; without such a place the key
was spelled out, or is empty. -/
def pushValue (tokens : Tokens) : Except Fault Tokens :=
  match tokens.keyPlace with
  | some place =>
    let tokens := tokens.insertAt place.number ⟨.key, place.mark, place.mark⟩
    let tokens := { tokens.openMappingAt place with keyPlace := none }
    .ok ((tokens.allowKey false).pushIndicator .value 1)
  | none =>
    if !tokens.bracketed && !tokens.keyAllowed then
      .error (tokens.source.faultHere "mapping values are not allowed in this context")
    else
      let tokens := tokens.openBlock .blockMappingStart
      .ok ((tokens.allowKey !tokens.bracketed).pushIndicator .value 1)

def pushAlias (tokens : Tokens) : Except Fault Tokens := do
  let tokens := (← tokens.notePlace).allowKey false
  let (name, after) ← Anchor.read "while scanning an alias" tokens.source
  return tokens.pushRead (.alias name) after

def pushAnchor (tokens : Tokens) : Except Fault Tokens := do
  let tokens := (← tokens.notePlace).allowKey false
  let (name, after) ← Anchor.read "while scanning an anchor" tokens.source
  return tokens.pushRead (.anchor name) after

def pushTag (tokens : Tokens) : Except Fault Tokens := do
  let tokens := (← tokens.notePlace).allowKey false
  let (tag, after) ← Tag.read tokens.bracketed tokens.source
  return tokens.pushRead (.tag tag) after

def pushBlockScalar (tokens : Tokens) (style : ScalarStyle) : Except Fault Tokens := do
  let tokens := (← tokens.dropPlace).allowKey true
  let (text, after) ← Scalar.block (style = .literal) tokens.leastColumn tokens.blocks.head?
    tokens.source
  return tokens.pushRead (.scalar text style) after

def pushQuoted (tokens : Tokens) (quote : Char) (style : ScalarStyle) :
    Except Fault Tokens := do
  let tokens := (← tokens.notePlace).allowKey false
  let (text, after) ← Scalar.quoted quote tokens.source
  return tokens.pushRead (.scalar text style) after

/-- A plain scalar that goes on to another line leaves room for a key there. -/
def pushPlain (tokens : Tokens) : Except Fault Tokens := do
  let tokens := (← tokens.notePlace).allowKey false
  let read ← Scalar.plain ⟨tokens.bracketed, tokens.leastColumn⟩ tokens.source
  return (tokens.allowKey read.broken).pushRead (.scalar read.text .plain) read.source

/-- The characters no plain scalar begins with, unless the next one says otherwise. -/
def indicators : List Char := "-?:,[]\x7b\x7d#&*!|>'\"%@`".toList

/-- Whether a plain scalar begins with the given character and what follows it. -/
def startsPlain (bracketed : Bool) (c : Char) (rest : List Char) : Bool :=
  !(isBlankOrBreak c || indicators.contains c) ||
    (c = '-' && !((rest.head?.map isBlank).getD false)) ||
    (!bracketed && (c = '?' || c = ':') && !atGap rest)

/-- Reads the token that begins with the given character. -/
def pushToken (tokens : Tokens) (c : Char) (rest : List Char) : Except Fault Tokens :=
  let bracketed := tokens.bracketed
  if tokens.column = 0 && c = '%' then tokens.pushDirective
  else if tokens.source.atDocumentMark '-' then tokens.pushDocumentBorder .documentStart
  else if tokens.source.atDocumentMark '.' then tokens.pushDocumentBorder .documentEnd
  else if c = '[' then tokens.pushFlowStart .flowSequenceStart
  else if c = '{' then tokens.pushFlowStart .flowMappingStart
  else if c = ']' then tokens.pushFlowEnd .flowSequenceEnd
  else if c = '}' then tokens.pushFlowEnd .flowMappingEnd
  else if c = ',' then tokens.pushFlowEntry
  else if c = '-' && atGap rest then tokens.pushBlockEntry
  else if c = '?' && (bracketed || atGap rest) then tokens.pushKey
  else if c = ':' && (bracketed || atGap rest) then tokens.pushValue
  else if c = '*' then tokens.pushAlias
  else if c = '&' then tokens.pushAnchor
  else if c = '!' then tokens.pushTag
  else if c = '|' && !bracketed then tokens.pushBlockScalar .literal
  else if c = '>' && !bracketed then tokens.pushBlockScalar .folded
  else if c = '\'' then tokens.pushQuoted '\'' .singleQuoted
  else if c = '"' then tokens.pushQuoted '"' .doubleQuoted
  else if startsPlain bracketed c rest then tokens.pushPlain
  else
    .error (tokens.source.fault "while scanning for the next token" tokens.mark
      "found character that cannot start any token")

/-- Reads one more token into the queue, and the ends of the blocks before it. -/
def fetch (tokens : Tokens) : Except Fault Tokens := do
  tokens.source.need 1
  if !tokens.started then return { tokens with started := true }.pushEmpty .streamStart
  let tokens ← skipGap (tokens.source.rest.length + 1) tokens
  let tokens ← tokens.dropPast
  let column := tokens.column
  let tokens := tokens.closeBlocks fun block ↦ block ≤ column
  tokens.source.need 4
  match tokens.source.rest with
  | [] => tokens.pushStreamEnd
  | c :: rest => tokens.pushToken c rest

/-- Whether the first token waiting may still turn out to begin a key. -/
def firstMayBeKey (tokens : Tokens) : Bool :=
  (tokens.keyPlace :: tokens.outerPlaces).any fun place ↦
    place.map KeyPlace.number = some tokens.taken

/-- Reads tokens until the first one waiting is certain. -/
def settle : (fuel : Nat) → Tokens → Except Fault Tokens
  | 0, tokens => .ok tokens
  | fuel + 1, tokens => do
    if tokens.queue.isEmpty then settle fuel (← tokens.fetch)
    else
      let tokens ← tokens.dropPast
      if tokens.firstMayBeKey then settle fuel (← tokens.fetch) else return tokens

/-- The next token, which stays in the queue. -/
def peek (tokens : Tokens) : Except Fault (Token × Tokens) := do
  let tokens ← settle (tokens.source.rest.length + 3) tokens
  match tokens.queue with
  | token :: _ => return (token, tokens)
  | [] => return (⟨.streamEnd, tokens.mark, tokens.mark⟩, tokens)

/-- Takes the next token from the queue. -/
def drop (tokens : Tokens) : Tokens :=
  { tokens with queue := tokens.queue.drop 1, taken := tokens.taken + 1 }

end Tokens

end TreeAudit.Yaml
