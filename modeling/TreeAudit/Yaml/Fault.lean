/-!
Places in a YAML text and what can be wrong there. A fault may carry what was being
read when it was met, and where that began.
-/

set_option autoImplicit false
set_option relaxedAutoImplicit false

namespace TreeAudit.Yaml

/-- A place in a text, all three counted from zero. -/
structure Mark where
  index : Nat := 0
  line : Nat := 0
  column : Nat := 0
deriving DecidableEq

namespace Mark

def isStart (mark : Mark) : Bool := mark.line = 0 && mark.column = 0

/-- Places are shown counted from one. -/
def text (mark : Mark) : String :=
  "line " ++ toString (mark.line + 1) ++ " column " ++ toString (mark.column + 1)

/-- The place, said after something else; the very start is not worth saying. -/
def suffix (mark : Mark) : String := if mark.isStart then "" else " at " ++ mark.text

def samePlace (a b : Mark) : Bool := a.line = b.line && a.column = b.column

end Mark

structure Fault where
  problem : String
  mark : Mark
  /-- How many bytes stand before bytes that encode no character. -/
  offset : Nat := 0
  context : Option (String × Mark) := none
deriving DecidableEq

namespace Fault

def placeText (fault : Fault) : String :=
  if !fault.mark.isStart then fault.mark.suffix
  else if fault.offset ≠ 0 then " at position " ++ toString fault.offset
  else ""

def contextText (fault : Fault) : String :=
  match fault.context with
  | none => ""
  | some (context, mark) =>
    ", " ++ context ++ if mark.samePlace fault.mark then "" else mark.suffix

def message (fault : Fault) : String := fault.problem ++ fault.placeText ++ fault.contextText

end Fault

end TreeAudit.Yaml
