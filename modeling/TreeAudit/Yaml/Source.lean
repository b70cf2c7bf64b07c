import TreeAudit.Yaml.Characters

/-!
A YAML text being read: what is left of it, and the place where that begins.
-/

set_option autoImplicit false
set_option relaxedAutoImplicit false

namespace TreeAudit.Yaml

structure Source where
  rest : List Char
  mark : Mark
  /-- What is wrong with the bytes after the rest. -/
  cutOff : Option Fault

/-- Line ends; a carriage return and a line feed are one. -/
def isBreak (c : Char) : Bool :=
  c = '\n' || c = '\r' || c = '\u0085' || c = '\u2028' || c = '\u2029'

def isBlank (c : Char) : Bool := c = ' ' || c = '\t'

def isBlankOrBreak (c : Char) : Bool := isBlank c || isBreak c

/-- The characters of anchors, directive names and tag handles. -/
def isWordChar (c : Char) : Bool := c.isAlphanum || c = '_' || c = '-'

/-- Whether a text is at its end or at a blank or line end. -/
def atGap : List Char → Bool
  | [] => true
  | c :: _ => isBlankOrBreak c

def atLineEnd : List Char → Bool
  | [] => true
  | c :: _ => isBreak c

namespace Source

def ofDecoded (decoded : Characters.Decoded) : Source := ⟨decoded.chars, {}, decoded.cutOff⟩

/-- Makes sure that the next `count` characters can be looked at, or that the text
ends before them. -/
def need (count : Nat) (source : Source) : Except Fault Unit :=
  match source.cutOff with
  | none => .ok ()
  | some fault => if (source.rest.drop (count - 1)).isEmpty then .error fault else .ok ()

def next? (source : Source) : Option Char := source.rest.head?

def starts (source : Source) (c : Char) : Bool := source.next? = some c

/-- How many bytes characters take up. -/
def byteCount (text : List Char) : Nat := text.foldl (fun count c ↦ count + c.utf8Size) 0

/-- Goes past characters of one line. -/
def skip (count : Nat) (source : Source) : Source :=
  let mark := source.mark
  { source with
    rest := source.rest.drop count
    mark := ⟨mark.index + byteCount (source.rest.take count), mark.line, mark.column + count⟩ }

/-- Takes the characters with a property, which no line end has. -/
def takeWhile (p : Char → Bool) (source : Source) : List Char × Source :=
  let taken := source.rest.takeWhile p
  (taken, source.skip taken.length)

def skipBlanks (source : Source) : Source := (source.takeWhile isBlank).2

/-- Goes past a comment, if one begins here. -/
def skipComment (source : Source) : Source :=
  if source.starts '#' then (source.takeWhile fun c ↦ !isBreak c).2 else source

/-- Goes past characters that end a line. -/
def newLine (count : Nat) (source : Source) : Source :=
  let mark := source.mark
  { source with
    rest := source.rest.drop count
    mark := ⟨mark.index + byteCount (source.rest.take count), mark.line + 1, 0⟩ }

/-- Takes a line end, if there is one, as it counts in the text of a scalar. -/
def takeBreak (source : Source) : List Char × Source :=
  match source.rest with
  | '\r' :: '\n' :: _ => (['\n'], source.newLine 2)
  | c :: _ =>
    if c = '\u2028' || c = '\u2029' then ([c], source.newLine 1)
    else if isBreak c then (['\n'], source.newLine 1)
    else ([], source)
  | [] => ([], source)

/-- Goes past a line end, if one is here. What it consists of takes two characters to
tell. -/
def skipBreak (source : Source) : Except Fault Source := do
  if !atLineEnd source.rest then return source
  if source.next?.isSome then source.need 2
  return source.takeBreak.2

/-- Whether a line begins here with a mark between documents. -/
def atDocumentMark (marker : Char) (source : Source) : Bool :=
  source.mark.column = 0 &&
    match source.rest with
    | a :: b :: c :: rest => a = marker && b = marker && c = marker && atGap rest
    | _ => false

def atDocumentBorder (source : Source) : Bool :=
  source.atDocumentMark '-' || source.atDocumentMark '.'

/-- A fault at this place, met while reading something that began at another. -/
def fault (source : Source) (context : String) (start : Mark) (problem : String) : Fault where
  problem := problem
  mark := source.mark
  context := some (context, start)

/-- A fault at this place. -/
def faultHere (source : Source) (problem : String) : Fault where
  problem := problem
  mark := source.mark

end Source

end TreeAudit.Yaml
