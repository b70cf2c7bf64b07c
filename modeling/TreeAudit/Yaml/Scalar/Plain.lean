import TreeAudit.Yaml.Scalar.Folding

/-!
Plain scalars: words and what stands between them, up to a comment, a colon before a
blank, a line indented less than its block, or, between brackets, an indicator.
-/

set_option autoImplicit false
set_option relaxedAutoImplicit false

namespace TreeAudit.Yaml.Scalar

/-- Where a scalar stands: between brackets or not, and the least column of its
lines. -/
structure Setting where
  bracketed : Bool
  indent : Nat

def endsBracketed (c : Char) : Bool :=
  c = ',' || c = '[' || c = ']' || c = '{' || c = '}'

/-- Whether a colon stands before an indicator, which is refused between brackets. -/
def strayColon : List Char → Bool
  | ':' :: c :: _ => endsBracketed c || c = '?'
  | _ => false

def colonBeforeGap : List Char → Bool
  | ':' :: rest => atGap rest
  | _ => false

/-- The characters of the word at the start of a text. -/
def word (bracketed : Bool) : List Char → List Char
  | [] => []
  | c :: rest =>
    if isBlankOrBreak c || (c = ':' && atGap rest) then []
    else if bracketed && (strayColon (c :: rest) || endsBracketed c) then []
    else c :: word bracketed rest

/-- A scalar that was read, and whether a gap on to another line follows it. -/
structure Plain where
  text : List Char
  broken : Bool
  source : Source

def plainContext : String := "while scanning a plain scalar"

def tabViolation? (setting : Setting) (start : Mark) (gap : Gap) (source : Source) :
    Option Fault :=
  if gap.broken && source.mark.column < setting.indent && source.starts '\t' then
    some (source.fault plainContext start "found a tab character that violates indentation")
  else none

/-- Reads words, `text` and `gap` being what was read before. -/
def plainFrom (setting : Setting) (start : Mark) :
    (fuel : Nat) → List Char → Gap → Source → Except Fault Plain
  | 0, text, gap, source => .ok ⟨text, gap.broken, source⟩
  | fuel + 1, text, gap, source => do
    source.need 4
    if source.atDocumentBorder || source.starts '#' then
      return ⟨text, gap.broken, source⟩
    let found := word setting.bracketed source.rest
    let text := if found.isEmpty then text else text ++ gap.folded ++ found
    let gap := if found.isEmpty then gap else {}
    let source := source.skip found.length
    source.need 2
    if setting.bracketed && strayColon source.rest && !colonBeforeGap source.rest then
      throw (source.fault plainContext start "found unexpected ':'")
    match source.next? with
    | none => return ⟨text, gap.broken, source⟩
    | some c =>
      if !isBlankOrBreak c then return ⟨text, gap.broken, source⟩
      let (gap, source) ←
        readGap (tabViolation? setting start) (source.rest.length + 1) gap source
      if !setting.bracketed && source.mark.column < setting.indent then
        return ⟨text, gap.broken, source⟩
      plainFrom setting start fuel text gap source

def plain (setting : Setting) (source : Source) : Except Fault Plain :=
  plainFrom setting source.mark (source.rest.length + 1) [] {} source

end TreeAudit.Yaml.Scalar
