import TreeAudit.Database.Catalog
import TreeAudit.Database.Evaluation

/-!
The columns of a row. Most are kept in records; one may be another name for the row number,
and others are computed from the rest. A record that is older than a column has no value for
it, and what the column was declared to hold by itself counts.
-/

set_option autoImplicit false
set_option relaxedAutoImplicit false

namespace TreeAudit.Database

open Statement (Expression truth?)

namespace Column

/-- A written number, as a column holds it that the number is declared for. -/
def declaredNumber (affinity : Affinity) (isNegative isReal : Bool) (text : List Char) : Value :=
  let written := Evaluation.textValue (if isNegative then '-' :: text else text)
  match isReal, Evaluation.wholeNumber isNegative text with
  | false, .integer n => affinity.keep (.integer n)
  | _, number =>
    if affinity ≠ .blob then affinity.keep written
    else if isReal then Evaluation.realNumber isNegative text
    else number

/-- The opposite of a number; a text counts as the number at its front. -/
def opposite (value : Value) : Value :=
  match value.castToNumber with
  | .integer n =>
    if n = Numeral.leastInteger then .real (.ofInt (-n)) else .integer (-n)
  | .real x => .real x.neg
  | value => value

/-- The value that an expression declares for a column. Only what is written out counts; what
would have to be computed is nothing. -/
def declaredValue (encoding : Encoding) : Affinity → Expression → Value
  | affinity, .unary .plus operand => declaredValue encoding affinity operand
  | affinity, .unary .minus (.number isReal text) => declaredNumber affinity true isReal text
  | affinity, .unary .minus operand =>
    affinity.keep (opposite (declaredValue encoding affinity operand))
  | affinity, .number isReal text => declaredNumber affinity false isReal text
  | affinity, .string text => affinity.keep (Evaluation.textValue text)
  | _, .blob bytes => .blob bytes
  | affinity, .cast operand type =>
    let inner := Affinity.ofType type
    affinity.keep ((declaredValue encoding inner operand).cast encoding inner)
  | affinity, .name name spelling =>
    match spelling, truth? name with
    | .bare, some truth => affinity.keep (.ofBool truth)
    | _, _ => affinity.keep (.ofString name)
  | _, _ => .null

/-- The value of a column in records that are older than it. -/
def absentValue (encoding : Encoding) (column : Column) : Value :=
  let expression? := (column.generation?.map Generation.expression).or column.default?
  expression?.elim .null (declaredValue encoding column.affinity)

/-- A value of a column as a record has it. A whole number may stand for a real one. -/
def kept (column : Column) (value : Value) : Value :=
  match column.affinity, value with
  | .real, .integer n => .real (.ofInt n)
  | _, value => value

end Column

namespace Table

/-- What a row has for a column without any computation. -/
abbrev Holding := Nat → Option (Except Fault Value)

/-- What a row in the tree of a table holds. -/
def holding (table : Table) (catalog : Catalog) (cell : TreeCell) : Holding := fun number ↦
  if table.alias? = some number then some (.ok (.integer cell.rowid))
  else
    match table.storedPlace? number, table.columns[number]? with
    | some place, some column => some do
      match ← Record.column catalog.encoding (cell.payload catalog.image).1 place with
      | some value => return column.kept value
      | none => return column.absentValue catalog.encoding
    | _, _ => none

/-- The columns that the keys of an index hold, with the key of a table that keeps its rows
by it behind. -/
def heldColumns (table : Table) (index : Index) : List (Option Nat) :=
  if !table.isKeyed then index.parts.map KeyPart.column?
  else if table.isOwn index then table.storedColumns.map some
  else
    let others := ((table.primaryKey?.map Index.parts).getD []).filter fun part ↦
      !index.parts.any fun own ↦
        own.column? = part.column? && sameName own.collation part.collation
    (index.parts ++ others).map KeyPart.column?

/-- What the keys of an index hold of a row. -/
def indexHolding (table : Table) (catalog : Catalog) (index : Index) (cell : TreeCell) :
    Holding := fun number ↦
  let payload := (cell.payload catalog.image).1
  if (table.columns[number]?.map Column.isVirtual).getD false then none
  else if table.isOwn index then table.holding catalog cell number
  else
    match (table.heldColumns index).findIdx? fun column? ↦ column? = some number with
    | some place => some do
      let value := (← Record.column catalog.encoding payload place).getD .null
      return (table.columns[number]?.elim value fun column ↦ column.kept value)
    | none =>
      if table.alias? = some number then
        some ((Record.rowid payload).map Value.integer)
      else none

/-- The value of a column. `depth` columns at most are computed from each other. -/
def value (table : Table) (encoding : Encoding) (holding : Holding) :
    (depth number : Nat) → Except Fault Value
  | 0, _ => .ok .null
  | depth + 1, number =>
    match holding number with
    | some value => value
    | none =>
      match table.columns[number]?.bind fun column ↦
        column.generation?.map fun generation ↦ (column.affinity, generation.expression) with
      | none => .ok .null
      | some (affinity, expression) => do
        let scope : Scope := ⟨encoding, table, value table encoding holding depth⟩
        return affinity.keep (← Evaluation.evaluate scope expression).value

/-- The value of a column of a row. -/
def column (table : Table) (encoding : Encoding) (holding : Holding) (number : Nat) :
    Except Fault Value :=
  table.value encoding holding (table.columns.length + 1) number

end Table

end TreeAudit.Database
