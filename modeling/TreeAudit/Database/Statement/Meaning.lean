import TreeAudit.Database.Function.Signature
import TreeAudit.Database.Schema

/-!
Whether an expression means something where it stands: its names have to be those of
columns, and what belongs to an index or a column must neither ask for other rows nor depend
on the time. A name in quotes that is that of no column is a text. Of several faults, the
one that is found last is told, but beyond a fault not everything is looked at.
-/

set_option autoImplicit false
set_option relaxedAutoImplicit false

namespace TreeAudit.Database.Statement

/-- Where an expression stands. -/
inductive Standing where
  | generatedColumn
  | index
  | indexCondition

def Standing.label : Standing → String
  | generatedColumn => "generated columns"
  | index => "index expressions"
  | indexCondition => "partial index WHERE clauses"

/-- Whether two names stand for truth values. -/
def truth? (name : String) : Option Bool :=
  if sameName name "true" then some true else if sameName name "false" then some false else none

namespace Meaning

/-- Looking through expressions, with the fault found last. -/
abbrev Search := StateM (Option String)

def fail (reason : String) : Search Unit := set (some reason)

/-- Whether a name stands for something. -/
def isKnown (table : Table) (standing : Standing) (name : String) (spelling : Spelling) :
    Bool :=
  (table.columnIndex? name).isSome || spelling = .likeText ||
    spelling = .bare && (truth? name).isSome ||
    match standing with
    | .indexCondition => !table.isKeyed && Table.rowNames.any fun word ↦ sameName word name
    | _ => false

def prohibit (standing : Standing) (what : String) : Search Unit :=
  fail (what ++ " prohibited in " ++ standing.label)

/-- What is wrong with the function of a call. -/
def checkFunction (standing : Standing) (function : String) (count : Nat) : Search Unit := do
  match Function.Signature.find? function count with
  | some signature =>
    match signature.kind with
    | .pure => pure ()
    | .volatile => prohibit standing "non-deterministic functions"
    | .aggregate => fail ("misuse of aggregate function " ++ function ++ "()")
    | .window => fail ("misuse of window function " ++ function ++ "()")
  | none =>
    if !(Function.Signature.named function).isEmpty then
      fail ("wrong number of arguments to function " ++ function ++ "()")

mutual

/-- Looks through an expression. Gives whether the search is to be broken off. -/
def check (table : Table) (standing : Standing) : Expression → Search Bool
  | .name name spelling => do
    if isKnown table standing name spelling then return false
    fail ("no such column: " ++ name)
    return true
  | .qualified => do
    match standing with
    | .indexCondition => return false
    | _ =>
      prohibit standing "the \".\" operator"
      return true
  | .call function arguments => do
    checkFunction standing function arguments.length
    let _ ← checkAll table standing arguments
    return false
  | .callAll function => do
    checkFunction standing function 0
    return false
  | .now => do
    prohibit standing "non-deterministic functions"
    return false
  | .query => do
    prohibit standing "subqueries"
    return true
  | .parameter => do
    prohibit standing "parameters"
    return true
  | .null | .number _ _ | .string _ | .blob _ | .raise => return (← get).isSome
  | .unary _ operand | .collated operand _ | .cast operand _ => do
    if (← get).isSome then return true
    check table standing operand
  | .binary _ left right => do
    if (← get).isSome then return true
    if ← check table standing left then return true
    check table standing right
  | .between _ operand low high => do
    if (← get).isSome then return true
    if ← check table standing operand then return true
    if ← check table standing low then return true
    check table standing high
  | .among _ operand members => do
    if (← get).isSome then return true
    if ← check table standing operand then return true
    checkAll table standing members
  | .choice base? conditions results otherwise? => do
    if (← get).isSome then return true
    if ← checkOption table standing base? then return true
    if ← checkAll table standing conditions then return true
    if ← checkAll table standing results then return true
    checkOption table standing otherwise?
  | .row members => do
    if (← get).isSome then return true
    checkAll table standing members

def checkAll (table : Table) (standing : Standing) : List Expression → Search Bool
  | [] => return false
  | first :: rest => do
    if ← check table standing first then return true
    checkAll table standing rest

def checkOption (table : Table) (standing : Standing) : Option Expression → Search Bool
  | none => return false
  | some expression => check table standing expression

end

/-- The fault of an expression, or else the one found before. -/
def faultAfter (table : Table) (standing : Standing) (before? : Option String)
    (expression : Expression) : Option String :=
  ((check table standing expression).run before?).2

end Meaning

end TreeAudit.Database.Statement
