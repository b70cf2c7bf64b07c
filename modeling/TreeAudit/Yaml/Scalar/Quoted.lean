import TreeAudit.Yaml.Scalar.Folding

/-!
Quoted scalars. Between single quotes a quote is written twice and nothing is escaped;
between double quotes a backslash escapes, also the end of a line.
-/

set_option autoImplicit false
set_option relaxedAutoImplicit false

namespace TreeAudit.Yaml.Scalar

/-- What a letter after a backslash stands for: a character, or the digits of one. -/
inductive Escape where
  | char (c : Char)
  | digits (count : Nat)

def escape? : Char → Option Escape
  | '0' => some (.char '\x00')
  | 'a' => some (.char '\x07')
  | 'b' => some (.char '\x08')
  | 't' => some (.char '\t')
  | '\t' => some (.char '\t')
  | 'n' => some (.char '\n')
  | 'v' => some (.char '\x0b')
  | 'f' => some (.char '\x0c')
  | 'r' => some (.char '\r')
  | 'e' => some (.char '\x1b')
  | ' ' => some (.char ' ')
  | '"' => some (.char '"')
  | '/' => some (.char '/')
  | '\\' => some (.char '\\')
  | 'N' => some (.char '\u0085')
  | '_' => some (.char '\u00a0')
  | 'L' => some (.char '\u2028')
  | 'P' => some (.char '\u2029')
  | 'x' => some (.digits 2)
  | 'u' => some (.digits 4)
  | 'U' => some (.digits 8)
  | _ => none

def hexValue? (c : Char) : Option Nat :=
  if '0' ≤ c ∧ c ≤ '9' then some (c.toNat - '0'.toNat)
  else if 'a' ≤ c ∧ c ≤ 'f' then some (c.toNat - 'a'.toNat + 10)
  else if 'A' ≤ c ∧ c ≤ 'F' then some (c.toNat - 'A'.toNat + 10)
  else none

/-- The value of so many hexadecimal digits. -/
def hexNumber? (value : Nat) : (count : Nat) → List Char → Option Nat
  | 0, _ => some value
  | _, [] => none
  | count + 1, c :: rest =>
    match hexValue? c with
    | some digit => hexNumber? (16 * value + digit) count rest
    | none => none

def escapeContext : String := "while parsing a quoted scalar"

def quotedContext : String := "while scanning a quoted scalar"

/-- The character an escape stands for; the source is at the backslash. -/
def readEscape (start : Mark) (source : Source) : Except Fault (Char × Source) := do
  match source.rest[1]?.bind escape? with
  | none => throw (source.fault escapeContext start "found unknown escape character")
  | some (.char c) => return (c, source.skip 2)
  | some (.digits count) =>
    let source := source.skip 2
    source.need count
    match hexNumber? 0 count source.rest with
    | none => throw (source.fault escapeContext start "did not find expected hexadecimal number")
    | some value =>
      if (0xd800 ≤ value && value ≤ 0xdfff) || 0x10ffff < value then
        throw (source.fault escapeContext start "found invalid Unicode character escape code")
      return (.ofNat value, source.skip count)

/-- The part of a quoted scalar up to a gap or its end. -/
structure Part where
  text : List Char
  /-- Whether the part ended in an escaped line end. -/
  joined : Bool
  source : Source

/-- Whether the text at the start is a backslash before a line end. -/
def escapedBreak : List Char → Bool
  | '\\' :: c :: _ => isBreak c
  | _ => false

/-- Reads on to a gap or the closing quote, `text` being what was read before. -/
def readPart (quote : Char) (start : Mark) :
    (fuel : Nat) → List Char → Source → Except Fault Part
  | 0, text, source => .ok ⟨text, false, source⟩
  | fuel + 1, text, source => do
    source.need 2
    match source.rest with
    | [] => return ⟨text, false, source⟩
    | c :: rest =>
      if isBlankOrBreak c then return ⟨text, false, source⟩
      else if quote = '\'' && c = '\'' && rest.head? = some '\'' then
        readPart quote start fuel (text ++ ['\'']) (source.skip 2)
      else if c = quote then return ⟨text, false, source⟩
      else if quote = '"' && escapedBreak (c :: rest) then
        source.need 3
        return ⟨text, true, (source.skip 1).takeBreak.2⟩
      else if quote = '"' && c = '\\' then
        let (escaped, source) ← readEscape start source
        readPart quote start fuel (text ++ [escaped]) source
      else readPart quote start fuel (text ++ [c]) (source.skip 1)

/-- Reads the rest of a quoted scalar and its closing quote. -/
def quotedFrom (quote : Char) (start : Mark) :
    (fuel : Nat) → List Char → Source → Except Fault (List Char × Source)
  | 0, text, source => .ok (text, source)
  | fuel + 1, text, source => do
    source.need 4
    if source.atDocumentBorder then
      throw (source.fault quotedContext start "found unexpected document indicator")
    if source.next?.isNone then
      throw (source.fault quotedContext start "found unexpected end of stream")
    let part ← readPart quote start (source.rest.length + 1) text source
    part.source.need 1
    if part.source.starts quote then return (part.text, part.source.skip 1)
    let (gap, source) ← readGap (fun _ _ ↦ none) (part.source.rest.length + 1)
      { broken := part.joined } part.source
    quotedFrom quote start fuel (part.text ++ gap.folded) source

/-- Reads a quoted scalar from its opening quote on. -/
def quoted (quote : Char) (source : Source) : Except Fault (List Char × Source) :=
  quotedFrom quote source.mark (source.rest.length + 1) [] (source.skip 1)

end TreeAudit.Yaml.Scalar
