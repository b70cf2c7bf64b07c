import TreeAudit.Yaml.Source

/-!
Blanks and line ends inside a scalar. Within a line blanks stay as they are. A single
line end between words becomes a space, and of several all but the first stay. Blanks
next to line ends say nothing.
-/

set_option autoImplicit false
set_option relaxedAutoImplicit false

namespace TreeAudit.Yaml.Scalar

/-- What stands between two words of a scalar. -/
structure Gap where
  blanks : List Char := []
  /-- Whether the gap goes on to another line. -/
  broken : Bool := false
  firstBreak : List Char := []
  moreBreaks : List Char := []

namespace Gap

/-- Line ends folded into what they stand for. -/
def foldBreaks (firstBreak moreBreaks : List Char) : List Char :=
  if firstBreak = ['\n'] then
    if moreBreaks.isEmpty then [' '] else moreBreaks
  else firstBreak ++ moreBreaks

/-- What the gap stands for. -/
def folded (gap : Gap) : List Char :=
  if gap.broken then foldBreaks gap.firstBreak gap.moreBreaks else gap.blanks

def addBlank (c : Char) (gap : Gap) : Gap :=
  if gap.broken then gap else { gap with blanks := gap.blanks ++ [c] }

def addBreak (text : List Char) (gap : Gap) : Gap :=
  if gap.broken then { gap with moreBreaks := gap.moreBreaks ++ text }
  else { gap with blanks := [], broken := true, firstBreak := text }

end Gap

/-- Reads the rest of a gap. A tab is refused where `violation?` finds one that stands
for indentation. -/
def readGap (violation? : Gap → Source → Option Fault) :
    (fuel : Nat) → Gap → Source → Except Fault (Gap × Source)
  | 0, gap, source => .ok (gap, source)
  | fuel + 1, gap, source => do
    source.need 1
    match source.next? with
    | none => return (gap, source)
    | some c =>
      if isBlank c then
        match violation? gap source with
        | some fault => throw fault
        | none => readGap violation? fuel (gap.addBlank c) (source.skip 1)
      else if isBreak c then
        source.need 2
        let (text, source) := source.takeBreak
        readGap violation? fuel (gap.addBreak text) source
      else return (gap, source)

end TreeAudit.Yaml.Scalar
