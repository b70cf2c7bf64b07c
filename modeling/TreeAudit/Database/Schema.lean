import TreeAudit.Database.Affinity
import TreeAudit.Database.Statement.Expression

/-!
What a database declares: tables with their columns, and indexes on them. Names are the same
in any case of the letters of the English alphabet.
-/

set_option autoImplicit false
set_option relaxedAutoImplicit false

namespace TreeAudit.Database

open Statement (Expression)

/-- Whether two names are the same. -/
def sameName (a b : String) : Bool := a.toLower = b.toLower

/-- How the values of a column come about that are not given. -/
structure Generation where
  expression : Expression
  isStored : Bool

structure Column where
  name : String
  type : List Char
  affinity : Affinity
  /-- The size that is expected of a value. -/
  size : Nat
  collation : String
  default? : Option Expression
  generation? : Option Generation
  isKey : Bool

namespace Column

/-- A column without a type keeps every value as it is. -/
def declared (name : String) (type : List Char) : Column where
  name := name
  type := type
  affinity := if type.isEmpty then .blob else .ofType type
  size := if type.isEmpty then 1 else Affinity.sizeOfType type
  collation := "BINARY"
  default? := none
  generation? := none
  isKey := false

/-- Whether the values of a column are computed when they are asked for. -/
def isVirtual (column : Column) : Bool :=
  match column.generation? with
  | some generation => !generation.isStored
  | none => false

end Column

/-- One part of a key: a column, or nothing for an expression or the row number. -/
structure KeyPart where
  column? : Option Nat
  collation : String
  isDescending : Bool

/-- Where an index comes from. -/
inductive Origin where
  | primaryKey
  | uniqueRule
  | declared
deriving DecidableEq

structure Index where
  name : String
  origin : Origin
  root : Nat
  parts : List KeyPart
  /-- The condition that rows have to meet to be in the index. -/
  condition? : Option Expression

/-- What a name of a table stands for. -/
inductive TableKind where
  | stored
  | view
  /-- A table that some module of the engine provides. -/
  | provided (module : String)
deriving DecidableEq

structure Table where
  name : String
  kind : TableKind
  root : Nat
  columns : List Column
  /-- The column that is another name for the row number. -/
  alias? : Option Nat
  /-- Whether the rows are kept by their key, without row numbers. -/
  isKeyed : Bool
  /-- The indexes, the latest first. -/
  indexes : List Index

namespace Table

def isOrdinary (table : Table) : Bool := table.kind = .stored

def columnIndex? (table : Table) (name : String) : Option Nat :=
  table.columns.findIdx? fun column ↦ sameName column.name name

/-- The index by which the rows of a table without row numbers are kept. -/
def primaryKey? (table : Table) : Option Index :=
  table.indexes.find? fun index ↦ index.origin = .primaryKey

/-- The root of the tree in which the rows themselves are kept. -/
def rowsRoot (table : Table) : Nat :=
  match table.isKeyed, table.primaryKey? with
  | true, some key => key.root
  | _, _ => table.root

/-- Whether an index is the tree in which the rows themselves are kept. -/
def isOwn (table : Table) (index : Index) : Bool := table.isKeyed && index.origin = .primaryKey

/-- The columns that records have, in their order: all that are stored, those of the key in
front if rows are kept by it. -/
def storedColumns (table : Table) : List Nat :=
  let stored := (List.range table.columns.length).filter fun place ↦
    !((table.columns[place]?.map Column.isVirtual).getD true)
  match table.isKeyed, table.primaryKey? with
  | true, some key =>
    let first := key.parts.filterMap KeyPart.column?
    first ++ stored.filter fun place ↦ !first.contains place
  | _, _ => stored

/-- The place of a column in records. -/
def storedPlace? (table : Table) (column : Nat) : Option Nat :=
  table.storedColumns.findIdx? fun place ↦ place = column

/-- The names of the row number. -/
def rowNames : List String := ["rowid", "_rowid_", "oid"]

end Table

structure Schema where
  tables : List Table

namespace Schema

def table? (schema : Schema) (name : String) : Option Table :=
  schema.tables.find? fun table ↦ sameName table.name name

def index? (schema : Schema) (name : String) : Option Index :=
  (schema.tables.flatMap Table.indexes).find? fun index ↦ sameName index.name name

end Schema

end TreeAudit.Database
