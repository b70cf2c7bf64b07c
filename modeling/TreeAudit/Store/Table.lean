import TreeAudit.Store.Paging

/-!
Documents in a table of a database, the id in one column and the payload in
another. A scan pages through the table: each page is the next rows in the order
of their ids after the last id read. Comparison is that of the database: a
missing id is never after another, texts are ordered by their bytes, and binary
values come after all texts.
-/

set_option autoImplicit false
set_option relaxedAutoImplicit false

namespace TreeAudit.Store

/-- What a column of a row holds. -/
inductive Cell where
  | null
  | text (text : String)
  | blob (bytes : List UInt8)
deriving DecidableEq

namespace Cell

def bytesLe : List UInt8 → List UInt8 → Bool
  | [], _ => true
  | _ :: _, [] => false
  | a :: as, b :: bs => a < b || (a = b && bytesLe as bs)

/-- The order in which a query sorts. -/
def le : Cell → Cell → Bool
  | null, _ => true
  | text _, null => false
  | text a, text b => a ≤ b
  | text _, blob _ => true
  | blob a, blob b => bytesLe a b
  | blob _, _ => false

/-- Whether a query for cells greater than a text finds this one. -/
def isAfter (key : String) : Cell → Bool
  | null => false
  | text t => key < t
  | blob _ => true

/-- The text of a column, which has to be one. -/
def asText (index : Nat) (name : String) : Cell → Except Database.Fault String
  | text t => .ok t
  | null => .error (.column index (.kind .null name))
  | blob _ => .error (.column index (.kind .blob name))

end Cell

structure Row where
  rowid : Int
  id : Cell
  data : Cell
deriving DecidableEq

structure Table where
  name : String
  /-- Whether rows are numbered. -/
  hasRowids : Bool
  columns : List String
  rows : List Row

namespace Table

/-- The rows with an id after `key`. -/
def rowsAfter (key : String) (rows : List Row) : List Row :=
  rows.filter fun row ↦ row.id.isAfter key

def inOrder (rows : List Row) : List Row :=
  rows.mergeSort fun a b ↦ a.id.le b.id

/-- The answer to the query for at most `limit` rows after `key`, in order. -/
def page (rows : List Row) (key : String) (limit : Nat) : List Row :=
  (inOrder (rowsAfter key rows)).take limit

/-- The id and document of a row. -/
def rowDocument (row : Row) : Except Error (String × Document) :=
  Paging.rowDocument (row.id.asText 0 "id") (row.data.asText 1 "data")

def pageDocuments (rows : List Row) : Except Error (List (String × Document)) :=
  rows.mapM rowDocument

/-- The documents of the page after an id. The query fails at the first column that the table
does not have. -/
def pages (table : Table) (limit : Nat) : Paging.Pages := fun after ↦
  match Paging.queried.find? fun column ↦ !table.columns.contains column.1 with
  | none => pageDocuments (page table.rows after limit)
  | some (name, offset) =>
    .error (.database (.rejectedAt ("no such column: " ++ name) Paging.query offset))

/-- All items of a scan in pages of `batch` rows, of which there is at least one. No row yields
more than one item. -/
def items (table : Table) (batch : Nat) : List Item :=
  let limit := Paging.limit batch
  Paging.Scan.start.pull (table.pages limit) limit (table.rows.length + 1)

/-- The largest row number, which counts deleted rows too. -/
def estimate (table : Table) : Option Nat :=
  if table.hasRowids then
    match (table.rows.map Row.rowid).max? with
    | some largest => some largest.toNat
    | none => none
  else none

end Table

/-- The tables of a database. -/
structure Tables where
  tables : List Table

namespace Tables

def table? (all : Tables) (name : String) : Option Table :=
  all.tables.find? fun table ↦ table.name = name

/-- The table that holds documents, if there is one. -/
def nodes? (all : Tables) : Option Table := all.table? Paging.nodes

/-- The items of a scan in pages of `batch` rows. -/
def items (all : Tables) (batch : Nat) : List Item :=
  match all.nodes? with
  | some table => table.items batch
  | none => [.error (.database (.rejected ("no such table: " ++ Paging.nodes)))]

/-- The estimate of the number of documents, if there is one. -/
def estimate (all : Tables) : Option Nat := all.nodes?.bind Table.estimate

end Tables

end TreeAudit.Store
