import TreeAudit.Database.Key
import TreeAudit.Database.Row

/-!
Finding rows: by their number in a tree by row numbers, or by the keys of a tree by keys. A
key is found by halving the cells of each page on the way down.
-/

set_option autoImplicit false
set_option relaxedAutoImplicit false

namespace TreeAudit.Database

namespace Catalog

/-- The row of a table with a number. -/
def numberedRow? (catalog : Catalog) (table : Table) (rowid : Int) :
    Except Fault (Option TreeCell) :=
  catalog.image.seek false table.root fun cell ↦ .ok (compare cell.rowid rowid)

/-- A collation by its name. -/
def collation (name : String) : Except Fault Collation := Evaluation.collation name

/-- The row that a cell of an index belongs to, if it is where it should be. -/
def rowOf? (catalog : Catalog) (table : Table) (index : Index) (cell : TreeCell) :
    Except Fault (Option TreeCell) := do
  if !table.isKeyed then
    let rowid ← Record.rowid (cell.payload catalog.image).1
    match ← catalog.numberedRow? table rowid with
    | some row => return some row
    | none => throw .malformed
  else
    let holding := table.indexHolding catalog index cell
    let parts ← ((table.primaryKey?.map Index.parts).getD []).mapM fun part ↦ do
      let value ← ((part.column?.bind holding).getD (.ok .null))
      return (⟨value, ← collation part.collation, part.isDescending⟩ : KeyValue)
    let key : Key := ⟨catalog.encoding, parts, table.storedColumns.length⟩
    catalog.image.seek true table.rowsRoot (key.order catalog.image)

end Catalog

end TreeAudit.Database
