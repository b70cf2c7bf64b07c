import TreeAudit.Yaml.Scalar.Folding

/-!
Block scalars: the lines below an indicator, as long as they are indented. Literal
ones keep their line ends, folded ones join lines that do not begin with a blank. The
line ends after the last line are kept, clipped to one, or stripped.
-/

set_option autoImplicit false
set_option relaxedAutoImplicit false

namespace TreeAudit.Yaml.Scalar

/-- What becomes of the line ends after the last line. -/
inductive Chomping where
  | strip
  | clip
  | keep
deriving DecidableEq

structure BlockHeader where
  chomping : Chomping
  /-- Indentation beyond that of the surroundings, if it is given. -/
  increment : Option Nat

def blockContext : String := "while scanning a block scalar"

def chompingOf? : Char → Option Chomping
  | '+' => some .keep
  | '-' => some .strip
  | _ => none

def readChomping (source : Source) : Option Chomping × Source :=
  match source.next?.bind chompingOf? with
  | some chomping => (some chomping, source.skip 1)
  | none => (none, source)

def readIncrement (start : Mark) (source : Source) : Except Fault (Option Nat × Source) :=
  match source.next? with
  | some c =>
    if c = '0' then
      .error (source.fault blockContext start "found an indentation indicator equal to 0")
    else if c.isDigit then .ok (some (c.toNat - '0'.toNat), source.skip 1)
    else .ok (none, source)
  | none => .ok (none, source)

/-- Reads the two indicators of a block scalar, in either order. -/
def readIndicators (start : Mark) (source : Source) : Except Fault (BlockHeader × Source) := do
  source.need 1
  match readChomping source with
  | (some chomping, source) =>
    source.need 1
    let (increment, source) ← readIncrement start source
    return (⟨chomping, increment⟩, source)
  | (none, source) =>
    let (increment, source) ← readIncrement start source
    if increment.isNone then return (⟨.clip, none⟩, source)
    source.need 1
    let (chomping, source) := readChomping source
    return (⟨chomping.getD .clip, increment⟩, source)

/-- Reads the line of the indicator to its end. -/
def readHeader (start : Mark) (source : Source) : Except Fault (BlockHeader × Source) := do
  let (header, source) ← readIndicators start source
  let source := source.skipBlanks.skipComment
  source.need 1
  if !atLineEnd source.rest then
    throw (source.fault blockContext start "did not find expected comment or line break")
  return (header, ← source.skipBreak)

/-- Empty lines and indentation before a line of the scalar. While the indentation is
not known every space counts to it. -/
structure Margin where
  breaks : List Char
  widest : Nat
  source : Source

/-- Whether the next column still belongs to the indentation. -/
def inMargin (indent : Option Nat) (source : Source) : Bool :=
  match indent with
  | none => true
  | some indent => source.mark.column < indent

def skipMargin (indent : Option Nat) : (fuel : Nat) → Source → Source
  | 0, source => source
  | fuel + 1, source =>
    if inMargin indent source && source.starts ' ' then skipMargin indent fuel (source.skip 1)
    else source

def readMargin (indent : Option Nat) (start : Mark) :
    (fuel : Nat) → Margin → Except Fault Margin
  | 0, margin => .ok margin
  | fuel + 1, margin => do
    let source := skipMargin indent (margin.source.rest.length + 1) margin.source
    source.need 1
    let widest := max margin.widest source.mark.column
    if inMargin indent source && source.starts '\t' then
      throw (source.fault blockContext start
        "found a tab character where an indentation space is expected")
    match source.next? with
    | none => return { margin with widest := widest, source := source }
    | some c =>
      if !isBreak c then return { margin with widest := widest, source := source }
      source.need 2
      let (text, source) := source.takeBreak
      readMargin indent start fuel ⟨margin.breaks ++ text, widest, source⟩

/-- A block scalar while its lines are read. -/
structure BlockText where
  text : List Char
  /-- The end of the last line, not yet added. -/
  lastBreak : List Char
  /-- The ends of the empty lines after it. -/
  breaks : List Char
  /-- Whether the last line began with a blank. -/
  blank : Bool

/-- Whether a line begins with a blank, which keeps it from being joined. -/
def startsBlank (source : Source) : Bool := (source.next?.map isBlank).getD false

/-- What stands between the lines read and the next one. -/
def joint (literal : Bool) (block : BlockText) (blank : Bool) : List Char :=
  if !literal && block.lastBreak = ['\n'] && !block.blank && !blank then
    Gap.foldBreaks block.lastBreak block.breaks
  else block.lastBreak ++ block.breaks

def blockLines (literal : Bool) (indent : Nat) (start : Mark) :
    (fuel : Nat) → BlockText → Source → Except Fault (BlockText × Source)
  | 0, block, source => .ok (block, source)
  | fuel + 1, block, source => do
    if source.mark.column ≠ indent || source.next?.isNone then return (block, source)
    let blank := startsBlank source
    let (line, after) := source.takeWhile fun c ↦ !isBreak c
    after.need 2
    let (lineEnd, after) := after.takeBreak
    let margin ← readMargin (some indent) start (after.rest.length + 1) ⟨[], 0, after⟩
    let block := {
      text := block.text ++ joint literal block blank ++ line
      lastBreak := lineEnd
      breaks := margin.breaks
      blank := blank }
    blockLines literal indent start fuel block margin.source

def chomped (chomping : Chomping) (block : BlockText) : List Char :=
  match chomping with
  | .strip => block.text
  | .clip => block.text ++ block.lastBreak
  | .keep => block.text ++ block.lastBreak ++ block.breaks

/-- Reads a block scalar from its indicator on. Lines have to be indented at least to
the column `least`. -/
def block (literal : Bool) (least : Nat) (surrounding : Option Nat) (source : Source) :
    Except Fault (List Char × Source) := do
  let start := source.mark
  let (header, source) ← readHeader start (source.skip 1)
  let given := header.increment.map fun increment ↦ surrounding.getD 0 + increment
  let margin ← readMargin given start (source.rest.length + 1) ⟨[], 0, source⟩
  let indent := given.getD (max (max margin.widest least) 1)
  let (block, source) ← blockLines literal indent start (margin.source.rest.length + 1)
    ⟨[], [], margin.breaks, false⟩ margin.source
  return (chomped header.chomping block, source)

end TreeAudit.Yaml.Scalar
