import TreeAudit.Database.Record
import TreeAudit.Database.Statement.Creation

/-!
What an image declares. The first page is the root of the table of all that there is, with an
entry for each table, index, view and action: its kind, its name, the table it belongs to, its
root and the statement that made it. Indexes that come from a rule of a table have no
statement. All entries have to be good; the first that is not is told.
-/

set_option autoImplicit false
set_option relaxedAutoImplicit false

namespace TreeAudit.Database

open Statement

/-- An image with what it declares. -/
structure Catalog where
  image : Image
  encoding : Encoding
  schema : Schema

namespace Catalog

/-- The columns of the table of all that there is. -/
def columnCount : Nat := 5

/-- A value as a text, which ends at the first zero. Nothing is no text. -/
def textOf (value : Value) : Option (List Char) :=
  match Numeral.toText value with
  | .text bytes | .blob bytes =>
    some (Text.Utf8.decodeLossy (bytes.takeWhile fun byte ↦ byte ≠ 0))
  | _ => none

/-- The texts of an entry. -/
def texts (image : Image) (encoding : Encoding) (cell : TreeCell) :
    Except Fault (List (Option (List Char))) :=
  let payload := (cell.payload image).1
  (List.range columnCount).mapM fun index ↦ do
    return ((← Record.column encoding payload index).bind textOf)

/-- The number of a root as it is written. -/
def root? (text : List Char) : Option Nat :=
  let value := text.foldl (fun value c ↦ 10 * value + Numeral.digitValue c) 0
  if text.isEmpty || !text.all Char.isDigit || 0x100000000 < value then none
  else some (value % 0x100000000)

/-- What is known of the entries up to some one, and the first fault among them. -/
structure Loading where
  schema : Schema
  fault? : Option Fault

def Loading.fail (loading : Loading) (name? : Option (List Char)) (detail : String) : Loading :=
  match loading.fault? with
  | some _ => loading
  | none =>
    let name := (name?.map String.ofList).getD "?"
    { loading with fault? := some (.malformedSchema name detail) }

/-- Whether a text begins as a statement that creates something does. -/
def isCreation (statement : List Char) : Bool :=
  (statement.take 2).map Char.toLower = ['c', 'r']

/-- Sets the root of an index that comes from a rule. -/
def setRoot (loading : Loading) (pageCount : Nat) (name : List Char) (root : List Char) :
    Loading :=
  match loading.schema.index? (String.ofList name) with
  | none => loading.fail (some name) "orphan index"
  | some index =>
    let place := (root? root).getD 0
    let isTaken := loading.schema.tables.any fun table ↦
      (table.indexes.any fun other ↦ sameName other.name index.name) &&
        table.indexes.any fun other ↦ !sameName other.name index.name && other.root = place
    if place < 2 || pageCount < place || isTaken then loading.fail (some name) "invalid rootpage"
    else
      let tables := loading.schema.tables.map fun table ↦
        { table with indexes := table.indexes.map fun other ↦
            if sameName other.name index.name then { other with root := place } else other }
      { loading with schema := ⟨tables⟩ }

/-- Takes in an entry. -/
def addEntry (pageCount : Nat) (honoursOrder : Bool) (loading : Loading) :
    List (Option (List Char)) → Loading
  | [kind?, name?, tableName?, root?, statement?] =>
    match root?, statement? with
    | none, _ => loading.fail name? ""
    | some root, statement? =>
      let statement := statement?.getD []
      if isCreation statement then
        let place? := Catalog.root? root
        let loading :=
          if (place?.map fun place ↦ decide (pageCount < place ∧ 0 < pageCount)).getD true then
            loading.fail name? "invalid rootpage"
          else loading
        let entry : Entry := {
          kind? := kind?.map String.ofList
          name? := name?.map String.ofList
          tableName? := tableName?.map String.ofList
          root := place?.getD 0
          statement
          schema := loading.schema
          honoursOrder }
        match entry.apply with
        | .ok schema => { loading with schema }
        | .error reason => loading.fail name? reason
      else
        match name?, statement with
        | some name, [] => setRoot loading pageCount name root
        | _, _ => loading.fail name? ""
  | _ => loading

/-- The formats of files that can be read. -/
def greatestFormat : Nat := 4

/-- Reads what an image declares. -/
def ofImage (image : Image) : Except Fault Catalog := do
  let encoding := Encoding.ofNumber (image.headerNumber 56)
  let format := image.headerNumber 44 % 256
  if greatestFormat < format then throw .unsupportedFormat
  let entries := (image.cells false 1).mapM (texts image encoding)
  let loading := entries.found.foldl (addEntry image.pageCount (greatestFormat ≤ format))
    ⟨⟨[]⟩, none⟩
  match loading.fault?, entries.fault? with
  | some fault, _ | none, some fault => throw fault
  | none, none => return ⟨image, encoding, loading.schema⟩

end Catalog

end TreeAudit.Database
