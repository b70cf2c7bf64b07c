import TreeAudit.Database.Evaluation

/-!
Whether a column can be computed. Columns may be computed from each other, but not from
themselves, and every function has to be known.
-/

set_option autoImplicit false
set_option relaxedAutoImplicit false

namespace TreeAudit.Database

open Statement (Expression)

namespace Computable

/-- Looking through expressions, with the fault found last. -/
abbrev Search := StateM (Option Fault)

def fail (reason : String) : Search Unit := set (some (Fault.rejected reason))

/-- Whether a number is too large for its digits of base sixteen to be read. -/
def isTooLarge (isNegative : Bool) (text : List Char) : Bool :=
  match text with
  | '0' :: x :: digits =>
    (x = 'x' || x = 'X') &&
      (let value := digits.foldl (fun value c ↦ 16 * value + (JsonTree.hexValue? c).getD 0) 0
      0x10000000000000000 ≤ value || isNegative && value = 0x8000000000000000)
  | _ => false

def checkNumber (isNegative : Bool) (text : List Char) : Search Unit :=
  if isTooLarge isNegative text then
    fail ("hex literal too big: " ++ (if isNegative then "-" else "") ++ String.ofList text)
  else pure ()

def checkCollation (name : String) : Search Unit :=
  if (Collation.named? name).isNone then set (some (Fault.noCollation name)) else pure ()

mutual

/-- Looks through an expression; `column` looks at a column it names. -/
def check (table : Table) (column : Nat → Search Unit) : Expression → Search Unit
  | .name name _ =>
    match table.columnIndex? name with
    | some number => column number
    | none => return
  | .number _ text => checkNumber false text
  | .unary .minus (.number _ text) => checkNumber true text
  | .unary _ operand | .collated operand _ | .cast operand _ => check table column operand
  | .binary operator left right => do
    check table column left
    check table column right
    if (Evaluation.isOrdered operator).isSome then
      checkCollation (Evaluation.collationOf table left right)
  | .call function arguments => do
    if (Function.Signature.find? function arguments.length).isNone then
      fail ("unknown function: " ++ function ++ "()")
    else checkAll table column arguments
  | .callAll function => fail ("unknown function: " ++ function ++ "()")
  | .between _ operand low high => do
    check table column operand
    check table column low
    check table column high
    checkCollation (Evaluation.collationOf table operand low)
    checkCollation (Evaluation.collationOf table operand high)
  | .among _ operand members => do
    check table column operand
    checkAll table column members
  | .choice base? conditions results otherwise? => do
    checkOption table column base?
    checkAll table column conditions
    checkAll table column results
    checkOption table column otherwise?
  | .row _ => fail "row value misused"
  | .raise => fail "RAISE() may only be used within a trigger-program"
  | .null | .string _ | .blob _ | .now | .parameter | .qualified | .query => return

def checkAll (table : Table) (column : Nat → Search Unit) : List Expression → Search Unit
  | [] => return
  | first :: rest => do
    check table column first
    checkAll table column rest

def checkOption (table : Table) (column : Nat → Search Unit) :
    Option Expression → Search Unit
  | none => return
  | some expression => check table column expression

end

/-- Looks at a column, and at those it is computed from. The columns in `opened` are being
looked at. -/
def checkColumn (table : Table) : (depth : Nat) → (opened : List Nat) → Nat → Search Unit
  | 0, _, _ => return
  | depth + 1, opened, number =>
    match table.columns[number]? with
    | none => return
    | some column =>
      match column.generation? with
      | none => return
      | some generation =>
        if generation.isStored then return
        else if opened.contains number then
          fail ("generated column loop on \"" ++ column.name ++ "\"")
        else check table (checkColumn table depth (number :: opened)) generation.expression

end Computable

/-- What is in the way of reading some columns of a table, if anything. -/
def Table.computingFault? (table : Table) (numbers : List Nat) : Option Fault :=
  ((numbers.forM (Computable.checkColumn table (table.columns.length + 1) [])).run none).2

end TreeAudit.Database
