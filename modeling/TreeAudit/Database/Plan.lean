import TreeAudit.Database.Schema
import TreeAudit.Numeric.Natural

/-!
How to go through the rows of a table in the order of one of its columns, beginning behind
some value: along an index that begins with the column, if there is one, or else through all
rows, be it in the table or in an index that holds enough. An index of some rows only is
preferred there, as long as it has all that count. Costs are estimated by sizes on a scale
of logarithms, ten times that of base two.
-/

set_option autoImplicit false
set_option relaxedAutoImplicit false

namespace TreeAudit.Database

open Statement (Expression BinaryOperator)

/-- Where rows are gone through. -/
inductive Route where
  /-- All rows of the table. -/
  | table
  /-- All rows of an index, and whether it holds all that is asked for. -/
  | wholeIndex (index : Index) (isCovering : Bool)
  /-- The rows behind a value in an index, in its order; whether it holds all that is asked
  for. -/
  | along (index : Index) (isCovering : Bool)

namespace Plan

/-- Ten times the logarithm of a number to base two, by its three leading bits. -/
def logarithm (n : Nat) : Nat :=
  let tenths := [0, 2, 3, 5, 6, 7, 8, 9]
  let power := Nat.log2 n
  let leading := if 3 ≤ power then n >>> (power - 3) else n <<< (3 - power)
  if n < 2 then 0 else 10 * power + tenths[leading % 8]?.getD 0

/-- What is to be added to the larger of two logarithms for the sum, by their difference. -/
def increment (difference : Nat) : Nat :=
  let steps := [1, 3, 5, 8, 11, 14, 18, 24, 31]
  match steps.findIdx? fun last ↦ difference ≤ last with
  | some place => 10 - place
  | none => if difference ≤ 49 then 1 else 0

/-- The logarithm of a sum. -/
def sum (a b : Nat) : Nat := max a b + increment (max a b - min a b)

/-- The number of rows that is assumed, as a logarithm. -/
def assumedRows : Nat := 200

def tableSize (table : Table) : Nat :=
  let width :=
    Numeric.total (table.columns.map Column.size) + (if table.alias?.isNone then 1 else 0)
  logarithm (4 * width)

/-- The columns in the keys of an index, nothing standing for row numbers and the like. -/
def widthOf (table : Table) (held : List (Option Nat)) : Nat :=
  Numeric.total <| held.map fun column? ↦
    ((column?.bind fun number ↦ table.columns[number]?).map Column.size).getD 1

def indexSize (table : Table) (held : List (Option Nat)) : Nat :=
  logarithm (4 * (widthOf table held + (if table.isKeyed then 0 else 1)))

/-- How much a row of an index costs against one of its table. -/
def share (table : Table) (held : List (Option Nat)) : Nat :=
  15 * indexSize table held / tableSize table

/-- Whether a condition on rows is met by those in which a column is something. -/
def isImplied (table : Table) (column : Nat) : Expression → Bool
  | .unary .notNull (.name name _) => table.columnIndex? name = some column
  | .binary .isNot (.name name _) .null => table.columnIndex? name = some column
  | .binary .and left right => isImplied table column left && isImplied table column right
  | .binary .or left right => isImplied table column left || isImplied table column right
  | .collated operand _ => isImplied table column operand
  | _ => false

/-- Whether an index has all rows in which a column is something. -/
def isUsable (table : Table) (column : Nat) (index : Index) : Bool :=
  match index.condition? with
  | none => true
  | some condition => isImplied table column condition

/-- Whether an index begins with a column, in the order of the column. -/
def leadsWith (table : Table) (column : Nat) (index : Index) : Bool :=
  match index.parts.head?, table.columns[column]? with
  | some part, some column' =>
    part.column? = some column && sameName part.collation column'.collation
  | _, _ => false

/-- Whether keys hold a column. What is computed when it is asked for is not taken from
there. -/
def holds (table : Table) (held : List (Option Nat)) (number : Nat) : Bool :=
  table.alias? = some number ||
    held.contains (some number) && !((table.columns[number]?.map Column.isVirtual).getD false)

/-- Whether keys hold some columns. Of a column with an expression, everything that it might
be computed from counts as asked for. -/
def covers (table : Table) (held : List (Option Nat)) (asked : List Nat) : Bool :=
  let isGenerated (number : Nat) : Bool :=
    (table.columns[number]?.bind Column.generation?).isSome
  let asked := if asked.any isGenerated then List.range table.columns.length else asked
  asked.all (holds table held)

/-- The cost of going along an index behind a value. -/
def costAlong (table : Table) (held : List (Option Nat)) (isCovering isPartial : Bool) : Nat :=
  let rows := assumedRows - 20 - (if isPartial then 10 else 0)
  let cost := rows + 1 + share table held
  if isCovering then cost else sum cost (rows + 16)

/-- The cost of going through all rows of an index. Where it does not hold everything, the
table is looked at for the rows that are behind the value. -/
def costWhole (table : Table) (held : List (Option Nat)) (column : Nat)
    (isCovering isPartial : Bool) : Nat :=
  let rows := assumedRows - (if isPartial then 10 else 0)
  let cost := rows + 1 + share table held
  if isCovering then cost
  else sum cost (rows + 16 - (if covers table held [column] then 1 else 0))

def costTable : Nat := assumedRows + 16

/-- The first of the cheapest. -/
def cheapest? {α : Type} (candidates : List (Nat × α)) : Option α :=
  (candidates.foldl (fun best? candidate ↦
    match best? with
    | some best => if candidate.1 < best.1 then some candidate else some best
    | none => some candidate) none).map Prod.snd

end Plan

open Plan in
/-- The way through the rows of a table in the order of a column, `asked` being what is to
be known of each. -/
def Table.route (table : Table) (held : Index → List (Option Nat)) (column : Nat)
    (asked : List Nat) : Route :=
  let isSelf (index : Index) : Bool := table.isOwn index
  let usable := table.indexes.filter (isUsable table column)
  let along := usable.filter (leadsWith table column)
  let candidates := along.map fun index ↦
    let isCovering := isSelf index || covers table (held index) asked
    (costAlong table (held index) isCovering index.condition?.isSome, Route.along index isCovering)
  match cheapest? candidates with
  | some route => route
  | none =>
    let whole (index : Index) : Nat × Route :=
      let isCovering := isSelf index || covers table (held index) asked
      (costWhole table (held index) column isCovering index.condition?.isSome,
        .wholeIndex index isCovering)
    let partials := (usable.filter fun index ↦ index.condition?.isSome).map whole
    let full := usable.filter fun index ↦
      index.condition?.isNone && (isSelf index || covers table (held index) asked)
    let first := if table.isKeyed then [] else [(costTable, Route.table)]
    ((cheapest? partials).or (cheapest? (first ++ full.map whole))).getD .table

end TreeAudit.Database
