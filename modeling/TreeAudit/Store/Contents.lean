import TreeAudit.Database.Query
import TreeAudit.Store.Table

/-!
What a database holds: tables that are known as they are, or an image that tables are read
from. The table of documents is looked up first, then the greatest row number tells how many
documents there may be, and then the rows are read in pages.
-/

set_option autoImplicit false
set_option relaxedAutoImplicit false

namespace TreeAudit.Store

open Database (Catalog Fault Value Walk)

namespace Paging

/-- The kind of an entry that is a table. -/
def tableKind : String := "table"

/-- Whether an image lists a table of documents, under just this name. -/
def isListed (catalog : Catalog) : Except Fault Bool := do
  let hasText (cell : Database.TreeCell) (index : Nat) (text : String) : Except Fault Bool := do
    let payload := (cell.payload catalog.image).1
    return (← Database.Record.column catalog.encoding payload index) = some (.ofString text)
  let found := (catalog.image.cells false 1).mapM fun cell ↦ do
    if ← hasText cell 0 tableKind then hasText cell 1 nodes else return false
  if found.found.contains true then return true
  let _ ← found.all
  return false

/-- The documents of the page of an image after an id. -/
def ofImage (catalog : Catalog) (limit : Nat) : Pages := fun after ↦ do
  let queried := match queried with
    | key :: others => catalog.query query nodes key others (.ofString after)
    | [] => .error .malformed
  match queried with
  | .error fault => throw (.database fault)
  | .ok queried =>
    let rows := (queried.run catalog limit).upTo limit
    let documents ← rows.found.mapM fun values ↦
      match values with
      | [id, data] => rowDocument (id.asText 0 "id") (data.asText 1 "data")
      | _ => throw (.database .malformed)
    match rows.fault? with
    | some fault => throw (.database fault)
    | none => return documents

end Paging

inductive Contents where
  | tables (tables : Tables)
  | image (catalog : Catalog)

namespace Contents

def empty : Contents := .tables ⟨[]⟩

/-- Whether there is a table of documents. -/
def hasNodes : Contents → Except Fault Bool
  | tables all => .ok all.nodes?.isSome
  | image catalog => Paging.isListed catalog

/-- A row number as an estimate of the number of documents. -/
def estimate : Contents → Option Nat
  | tables all => all.estimate
  | image catalog =>
    match catalog.greatestRow? Paging.nodes with
    | .ok greatest? => greatest?.map Int.toNat
    | .error _ => none

/-- The items of a scan in pages of `batch` rows. An image has no more rows than bytes. -/
def items (contents : Contents) (batch : Nat) : List Item :=
  match contents with
  | tables all => all.items batch
  | image catalog =>
    let limit := Paging.limit batch
    Paging.Scan.start.pull (Paging.ofImage catalog limit) limit
      (catalog.image.pageSize * catalog.image.pageCount + 1)

/-- What an open file turns out to be when it is read. -/
abbrev Reading := Except Fault Contents

/-- The store of a database, given what became of its file by the time of the scan: it
may not open any more, or not be read. -/
def store (opened : Except Fault Reading) (batch : Nat) : Store where
  name := "sqlite"
  estimate := match opened with
    | .ok (.ok contents) => contents.estimate
    | _ => none
  scan := match opened with
    | .ok (.ok contents) => .ok (contents.items batch)
    | .ok (.error fault) => .ok [.error (.database fault)]
    | .error fault => .error (.database fault)

end Contents

end TreeAudit.Store
