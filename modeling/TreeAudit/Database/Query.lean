import TreeAudit.Database.Computable
import TreeAudit.Database.Plan
import TreeAudit.Database.Search

/-!
Queries for some columns of the rows in which one column is greater than a value, in the order
of that column. If an index gives the order, rows are found one by one; otherwise all rows
are looked at, and what is asked for is read of those only that are among the first so far.
-/

set_option autoImplicit false
set_option relaxedAutoImplicit false

namespace TreeAudit.Database

/-- A query: the columns of a table that are asked for, the column by which rows are ordered
and the value behind which they begin. -/
structure Query where
  table : Table
  asked : List Nat
  key : Nat
  keyColumn : Column
  collation : Collation
  after : Value

namespace Query

/-- Whether a value of the key column is behind the value at which the rows begin. -/
def isBehind (query : Query) (encoding : Encoding) (value : Value) : Bool :=
  Evaluation.compare? encoding query.collation query.keyColumn.affinity value query.after =
    some .gt

def row (query : Query) (encoding : Encoding) (holding : Table.Holding) :
    Except Fault (List Value) :=
  query.asked.mapM (query.table.column encoding holding)

/-- A row found in a scan, with its key. -/
structure Scanned where
  key : Value
  row : Except Fault (List Value)

/-- The rows that are behind the value, in the order of a scan. -/
def scanned (query : Query) (encoding : Encoding) (rows : Walk Table.Holding) : Walk Scanned :=
  let keyed := rows.mapM fun holding ↦ do
    let key ← query.table.column encoding holding query.key
    return (⟨key, query.row encoding holding⟩ : Scanned)
  ⟨keyed.found.filter fun entry ↦ query.isBehind encoding entry.key, keyed.fault?⟩

/-- Whether fewer than `limit` of the rows before another one in a scan come before it in
order too. -/
def isAmongFirst (query : Query) (encoding : Encoding) (limit : Nat) (before : List Scanned)
    (entry : Scanned) : Bool :=
  (before.countP fun other ↦
    Value.order encoding query.collation other.key entry.key ≠ .gt) < limit

/-- The fault of the first row in a scan that is read and cannot be. -/
def readingFault? (query : Query) (encoding : Encoding) (limit : Nat) (entries : List Scanned) :
    Option Fault :=
  entries.zipIdx.findSome? fun (entry, place) ↦
    match entry.row with
    | .error fault =>
      if query.isAmongFirst encoding limit (entries.take place) entry then some fault else none
    | .ok _ => none

/-- Whether a whole number takes no more than six bytes. -/
def isShort (n : Int) : Bool := -0x800000000000 ≤ n && n < 0x800000000000

/-- What becomes of a value of a column when rows are put aside to be sorted: a computed real
number that is whole and short is kept as a whole one, and stays that. -/
def putAside (column? : Option Column) (value : Value) : Value :=
  match column?, value with
  | some column, .real x =>
    match column.isVirtual && column.affinity = .real, x.toInt? with
    | true, some n => if isShort n then .integer n else .real x
    | _, _ => .real x
  | _, value => value

/-- The first rows of a scan in order. -/
def sorted (query : Query) (encoding : Encoding) (limit : Nat) (entries : Walk Scanned) :
    Walk (List Value) :=
  match (query.readingFault? encoding limit entries.found).or entries.fault? with
  | some fault => .fail fault
  | none =>
    let order (a b : Scanned) : Bool :=
      Value.order encoding query.collation a.key b.key ≠ .gt
    (Walk.ofList ((entries.found.mergeSort order).take limit)).mapM fun entry ↦ do
      return (query.asked.zip (← entry.row)).map fun (number, value) ↦
        putAside query.table.columns[number]? value

/-- The cells of an index behind the value. An index in falling order is gone through
backwards. -/
def cellsBehind (query : Query) (catalog : Catalog) (index : Index) : Walk TreeCell :=
  let value := query.keyColumn.affinity.forComparison query.after query.after
  let isDescending := (index.parts.head?.map KeyPart.isDescending).getD false
  let count := (query.table.heldColumns index).length + (if query.table.isKeyed then 0 else 1)
  let key : Key := ⟨catalog.encoding, [⟨value, query.collation, isDescending⟩], count⟩
  let position (equal : Ordering) (page : TreePage) : Except Fault Nat := do
    let order (cell : TreeCell) := do return (← key.order catalog.image cell).then equal
    return (← Image.locateIn order page).1
  if isDescending then catalog.image.cellsBackFrom true index.root (position .gt)
  else catalog.image.cellsFrom true index.root (position .lt)

/-- What is held of the row that a cell of an index belongs to, if there is one: what the index
has itself, and the rest in the table. A row that has a number must be there. -/
def rowsAt (query : Query) (catalog : Catalog) (index : Index) (isCovering : Bool)
    (cell : TreeCell) : Walk Table.Holding :=
  let table := query.table
  let held := table.indexHolding catalog index cell
  let both (row : TreeCell) : Table.Holding := fun number ↦
    (held number).or (table.holding catalog row number)
  if isCovering then .ofList [held]
  else
    match table.isKeyed, catalog.rowOf? table index cell with
    | _, .ok row? => .ofList (row?.toList.map both)
    | true, .error fault => .fail fault
    | false, .error fault => .ofList [fun number ↦
      if (table.columns[number]?.map Column.isVirtual).getD false then none
      else (held number).or (some (.error fault))]

/-- What is held of the rows that some cells of an index belong to. -/
def rows (query : Query) (catalog : Catalog) (index : Index) (isCovering : Bool)
    (cells : Walk TreeCell) : Walk Table.Holding :=
  if !isCovering && query.table.rowsRoot = 0 then .fail .malformed
  else cells.flatMapWalk (query.rowsAt catalog index isCovering)

/-- The answer to a query, up to `limit` rows. -/
def run (query : Query) (catalog : Catalog) (limit : Nat) : Walk (List Value) :=
  let table := query.table
  if table.alias? = some query.key then
    if table.root = 0 then .fail .malformed else .nil
  else
    match table.route table.heldColumns query.key query.asked with
    | .along index isCovering =>
      (query.rows catalog index isCovering ((query.cellsBehind catalog index).upTo limit)).mapM
        (query.row catalog.encoding)
    | .table =>
      query.sorted catalog.encoding limit <| query.scanned catalog.encoding <|
        (catalog.image.cells table.isKeyed table.rowsRoot).mapM fun cell ↦
          .ok (table.holding catalog cell)
    | .wholeIndex index isCovering =>
      query.sorted catalog.encoding limit <| query.scanned catalog.encoding <|
        query.rows catalog index isCovering (catalog.image.cells true index.root)

end Query

namespace Catalog

/-- The number of a column that a statement names at some place in it. -/
def columnNamed (table : Table) (statement : String) (named : String × Nat) :
    Except Fault Nat :=
  match table.columnIndex? named.1 with
  | some number => .ok number
  | none => .error (.rejectedAt ("no such column: " ++ named.1) statement named.2)

/-- The table with a name, if it can be read. -/
def readable (catalog : Catalog) (name : String) : Except Fault Table :=
  match catalog.schema.table? name with
  | none => .error (.rejected ("no such table: " ++ name))
  | some table =>
    match table.kind with
    | .provided module => .error (.rejected ("no such module: " ++ module))
    | _ => .ok table

/-- The query of a statement for some columns, each with its place in the statement. Rows are
ordered by the first of them. -/
def query (catalog : Catalog) (statement tableName : String) (key : String × Nat)
    (others : List (String × Nat)) (after : Value) : Except Fault Query := do
  let table ← catalog.readable tableName
  let asked ← (key :: others).mapM (columnNamed table statement)
  match asked with
  | [] => throw .malformed
  | number :: _ =>
    match table.columns[number]? with
    | none => throw .malformed
    | some column =>
      match table.computingFault? asked with
      | some fault => throw fault
      | none => return ⟨table, asked, number, column, ← collation column.collation, after⟩

/-- The greatest row number of a table, or the greatest value of a column that goes by that
name. A table without either has none. -/
def greatestRow? (catalog : Catalog) (tableName : String) : Except Fault (Option Int) := do
  let table ← catalog.readable tableName
  if !table.isOrdinary then return none
  match table.columnIndex? "rowid" with
  | none =>
    if table.isKeyed then return none
    return (← catalog.image.lastRow? table.root).map TreeCell.rowid
  | some number =>
    match table.columns[number]? with
    | none => return none
    | some column =>
      let collation ← collation column.collation
      let values ← ((catalog.image.cells table.isKeyed table.rowsRoot).mapM fun cell ↦
        table.column catalog.encoding (table.holding catalog cell) number).all
      let greatest := (values.filter fun value ↦ !value.isNull).foldl (fun best? value ↦
        match best? with
        | some best =>
          if Value.order catalog.encoding collation best value = .lt then some value else some best
        | none => some value) (none : Option Value)
      match greatest with
      | some (.integer n) => return some n
      | _ => return none

end Catalog

end TreeAudit.Database
