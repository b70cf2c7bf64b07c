import TreeAudit.Yaml.Scalar.Quoted

/-!
Tags, the directives before a document, and anchors. A tag is a handle, which stands
for the beginning of the tag, and the rest of it. Escaped bytes in a tag are kept as
characters of the same number; an escaped zero ends the part of a tag it is in.
-/

set_option autoImplicit false
set_option relaxedAutoImplicit false

namespace TreeAudit.Yaml

/-- A tag as it is written; without a handle its rest is the whole tag. -/
structure Tag where
  handle : List Char
  rest : List Char
deriving DecidableEq

namespace Tag

def uriPunctuation : List Char := ";/?:@&=+$.%!~*'()".toList

/-- Characters of a tag; between angle brackets and in directives some more. -/
def isUriChar (wide : Bool) (c : Char) : Bool :=
  isWordChar c || uriPunctuation.contains c || (wide && (c = ',' || c = '[' || c = ']'))

def uriContext (directive : Bool) : String :=
  if directive then "while parsing a %TAG directive" else "while parsing a tag"

/-- The byte written as a percent sign and two hexadecimal digits. -/
def escapedByte? : List Char → Option Nat
  | '%' :: a :: b :: _ => Scalar.hexNumber? 0 2 [a, b]
  | _ => none

/-- Reads the escaped bytes of one character, `left` of them if that is known yet. -/
def readEscapes (directive : Bool) (start : Mark) :
    (fuel : Nat) → Option Nat → Source → Except Fault (List Char × Source)
  | 0, _, source => .ok ([], source)
  | fuel + 1, left, source => do
    source.need 3
    let fault := source.fault (uriContext directive) start
    match escapedByte? source.rest with
    | none => throw (fault "did not find URI escaped octet")
    | some byte =>
      let left ← match left with
        | none =>
          match Characters.width? (.ofNat byte) with
          | some width => pure width
          | none => throw (fault "found an incorrect leading UTF-8 octet")
        | some left =>
          if byte / 64 = 2 then pure left
          else throw (fault "found an incorrect trailing UTF-8 octet")
      if left ≤ 1 then return ([.ofNat byte], source.skip 3)
      let (others, source) ← readEscapes directive start fuel (some (left - 1)) (source.skip 3)
      return (.ofNat byte :: others, source)

def readUriChars (wide directive : Bool) (start : Mark) :
    (fuel : Nat) → Source → Except Fault (List Char × Source)
  | 0, source => .ok ([], source)
  | fuel + 1, source => do
    source.need 1
    match source.next? with
    | none => return ([], source)
    | some c =>
      if !isUriChar wide c then return ([], source)
      let (text, source) ←
        if c = '%' then readEscapes directive start 4 none source
        else pure ([c], source.skip 1)
      let (rest, source) ← readUriChars wide directive start fuel source
      return (text ++ rest, source)

/-- Reads the rest of a tag after `head`, whose first character does not count as part
of it. All together there has to be something. -/
def readUri (wide directive : Bool) (head : List Char) (start : Mark) (source : Source) :
    Except Fault (List Char × Source) := do
  let (text, source) ← readUriChars wide directive start (source.rest.length + 1) source
  if head.isEmpty && text.isEmpty then
    throw (source.fault (uriContext directive) start "did not find expected tag URI")
  return ((head.drop 1 ++ text).takeWhile fun c ↦ c ≠ '\x00', source)

/-- Reads an exclamation mark, word characters and, if there is one, a second mark. -/
def readHandle (directive : Bool) (start : Mark) (source : Source) :
    Except Fault (List Char × Source) := do
  source.need 1
  if !source.starts '!' then
    throw (source.fault
      (if directive then "while scanning a tag directive" else "while scanning a tag") start
      "did not find expected '!'")
  let (name, source) := (source.skip 1).takeWhile isWordChar
  source.need 1
  if source.starts '!' then return ('!' :: name ++ ['!'], source.skip 1)
  if directive && !name.isEmpty then
    throw (source.fault "while parsing a tag directive" start "did not find expected '!'")
  return ('!' :: name, source)

def isFullHandle (handle : List Char) : Bool := 1 < handle.length && handle.getLast? = some '!'

def readShorthand (start : Mark) (source : Source) : Except Fault (Tag × Source) := do
  let (handle, source) ← readHandle false start source
  if isFullHandle handle then
    let (rest, source) ← readUri false false [] start source
    return (⟨handle, rest⟩, source)
  let (rest, source) ← readUri false false handle start source
  if rest.isEmpty then return (⟨[], ['!']⟩, source) else return (⟨['!'], rest⟩, source)

def readVerbatim (start : Mark) (source : Source) : Except Fault (Tag × Source) := do
  let (rest, source) ← readUri true false [] start (source.skip 2)
  if !source.starts '>' then
    throw (source.fault "while scanning a tag" start "did not find the expected '>'")
  return (⟨[], rest⟩, source.skip 1)

def read (bracketed : Bool) (source : Source) : Except Fault (Tag × Source) := do
  let start := source.mark
  source.need 2
  let (tag, source) ←
    if source.rest[1]? = some '<' then readVerbatim start source
    else readShorthand start source
  source.need 1
  if !atGap source.rest && !(bracketed && source.starts ',') then
    throw (source.fault "while scanning a tag" start
      "did not find expected whitespace or line break")
  return (tag, source)

end Tag

/-- What may stand before a document. -/
inductive Directive where
  | version (major minor : Nat)
  | tag (handle lead : List Char)
deriving DecidableEq

namespace Directive

def versionContext : String := "while scanning a %YAML directive"

def tagContext : String := "while scanning a %TAG directive"

def context : String := "while scanning a directive"

def digitsValue (digits : List Char) : Nat :=
  digits.foldl (fun value c ↦ 10 * value + (c.toNat - '0'.toNat)) 0

def longestNumber : Nat := 9

def readNumber (start : Mark) (source : Source) : Except Fault (Nat × Source) := do
  let (digits, after) := source.takeWhile Char.isDigit
  if longestNumber < digits.length then
    throw ((source.skip longestNumber).fault versionContext start
      "found extremely long version number")
  after.need 1
  if digits.isEmpty then
    throw (source.fault versionContext start "did not find expected version number")
  return (digitsValue digits, after)

def readVersion (start : Mark) (source : Source) : Except Fault (Directive × Source) := do
  let (major, source) ← readNumber start source.skipBlanks
  if !source.starts '.' then
    throw (source.fault versionContext start "did not find expected digit or '.' character")
  let (minor, source) ← readNumber start (source.skip 1)
  return (version major minor, source)

def readTag (start : Mark) (source : Source) : Except Fault (Directive × Source) := do
  let (handle, source) ← Tag.readHandle true start source.skipBlanks
  source.need 1
  if !((source.next?.map isBlank).getD false) then
    throw (source.fault tagContext start "did not find expected whitespace")
  let (lead, source) ← Tag.readUri true true [] start source.skipBlanks
  source.need 1
  if !atGap source.rest then
    throw (source.fault tagContext start "did not find expected whitespace or line break")
  return (tag handle lead, source)

def readBody (name : List Char) (start : Mark) (source : Source) :
    Except Fault (Directive × Source) :=
  if name = "YAML".toList then readVersion start source
  else if name = "TAG".toList then readTag start source
  else .error (source.fault context start "found unknown directive name")

/-- Reads a directive from its percent sign to the end of its line. -/
def read (source : Source) : Except Fault (Directive × Source) := do
  let start := source.mark
  let (name, source) := (source.skip 1).takeWhile isWordChar
  source.need 1
  if name.isEmpty then
    throw (source.fault context start "could not find expected directive name")
  if !atGap source.rest then
    throw (source.fault context start "found unexpected non-alphabetical character")
  let (directive, source) ← readBody name start source
  let source := source.skipBlanks.skipComment
  source.need 1
  if !atLineEnd source.rest then
    throw (source.fault context start "did not find expected comment or line break")
  return (directive, ← source.skipBreak)

end Directive

namespace Anchor

def mayFollow (c : Char) : Bool := "?:,]\x7d%@`".toList.contains c

/-- Reads the name of an anchor or alias, its indicator included. -/
def read (context : String) (source : Source) : Except Fault (List Char × Source) := do
  let start := source.mark
  let (name, source) := (source.skip 1).takeWhile isWordChar
  source.need 1
  let followed := atGap source.rest || (source.next?.map mayFollow).getD true
  if name.isEmpty || !followed then
    throw (source.fault context start "did not find expected alphabetic or numeric character")
  return (name, source)

end Anchor

end TreeAudit.Yaml
