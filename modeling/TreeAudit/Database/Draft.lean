import TreeAudit.Database.Statement.Meaning
import TreeAudit.Database.Statement.Token

/-!
Tables as they come to be while their declaration is read. A key of one column of whole
numbers is another name for the row number; any other key, and every rule that values be
unique, makes an index of its own.
-/

set_option autoImplicit false
set_option relaxedAutoImplicit false

namespace TreeAudit.Database

open Statement

/-- One term of a key as it is declared. -/
structure KeyTerm where
  expression : Expression
  isDescending : Bool

structure Draft where
  table : Table
  hasKey : Bool
  /-- Whether the key that is another name for the row number was declared descending. -/
  aliasIsDescending : Bool
  /-- Whether row numbers are never used again. -/
  countsUp : Bool

namespace Draft

/-- Types that name a kind of value by its usual name. -/
def usualTypes : List String := ["ANY", "BLOB", "INT", "INTEGER", "REAL", "TEXT"]

def isType (type : List Char) (name : String) : Bool := (String.ofList type).toUpper = name

/-- A type that starts with a quote, without its quotes and what is behind them. -/
def plainType (type : List Char) : List Char :=
  match Token.ofText type with
  | token :: _ =>
    if token.kind = .quotedName || token.kind = .string then token.unquoted else type
  | [] => type

/-- Takes a word from the end of a text, with the blanks in front of it. -/
def withoutLast? (word : String) (text : List Char) : Option (List Char) :=
  let size := word.length
  if size ≤ text.length &&
      sameName (String.ofList (text.drop (text.length - size))) word then
    some ((text.take (text.length - size)).reverse.dropWhile Token.isBlank).reverse
  else none

/-- A type without the words that announce a computed column. -/
def trimmedType (type : List Char) : List Char :=
  match (if type.length < 16 then none else withoutLast? "always" type) with
  | some front => (withoutLast? "generated" front).getD front
  | none => type

def start (name : String) (kind : TableKind) (root : Nat) : Draft :=
  ⟨⟨name, kind, root, [], none, false, []⟩, false, false, false⟩

def greatestColumnCount : Nat := 2000

def addColumn (draft : Draft) (name : String) (type : List Char) : Except String Draft := do
  if greatestColumnCount ≤ draft.table.columns.length then
    throw ("too many columns on " ++ draft.table.name)
  if (draft.table.columnIndex? name).isSome then throw ("duplicate column name: " ++ name)
  let type := trimmedType type
  let column := { Column.declared name (plainType type) with type := type }
  return { draft with table.columns := draft.table.columns ++ [column] }

/-- Changes a column. -/
def change (draft : Draft) (place : Nat) (f : Column → Column) : Draft :=
  { draft with table.columns := draft.table.columns.modify place f }

def last (draft : Draft) : Nat := draft.table.columns.length - 1

def column? (draft : Draft) (place : Nat) : Option Column := draft.table.columns[place]?

/-- Whether two keys have the same columns with the same collations. -/
def sameParts (a b : List KeyPart) : Bool :=
  a.length = b.length && (a.zip b).all fun (a, b) ↦
    a.column? = b.column? && sameName a.collation b.collation

/-- Adds the index of a key or a rule, unless there is one already. -/
def addIndex (draft : Draft) (origin : Origin) (parts : List KeyPart) : Draft :=
  let table := draft.table
  if table.indexes.any fun index ↦ sameParts index.parts parts then
    let indexes := table.indexes.map fun index ↦
      if sameParts index.parts parts && origin = .primaryKey then { index with origin } else index
    { draft with table.indexes := indexes }
  else
    let name := "sqlite_autoindex_" ++ table.name ++ "_" ++ toString (table.indexes.length + 1)
    { draft with table.indexes := ⟨name, origin, 0, parts, none⟩ :: table.indexes }

def collationOf (table : Table) (place : Nat) : String :=
  (table.columns[place]?.map Column.collation).getD "BINARY"

/-- An expression without the collations around it. -/
def bare : Expression → Expression
  | .collated operand _ => bare operand
  | expression => expression

/-- A text where a name is expected is a name. -/
def asName : Expression → Expression
  | .string text => .name (String.ofList text) .quoted
  | .collated operand collation => .collated (asName operand) collation
  | expression => expression

/-- The parts of a key of a table. What is no column has no place in a key, but may have one
in an index. -/
def parts (table : Table) (admitsExpressions honoursOrder : Bool) (terms : List KeyTerm) :
    Except String (List KeyPart) :=
  terms.mapM fun term ↦ do
    let expression := asName term.expression
    match Meaning.faultAfter table .index none expression with
    | some reason => throw reason
    | none =>
      let column? := match bare expression with
        | .name name _ => table.columnIndex? name
        | _ => none
      if column?.isNone && !admitsExpressions then
        throw "expressions prohibited in PRIMARY KEY and UNIQUE constraints"
      let collation := match expression with
        | .collated _ collation => collation
        | _ => (column?.map (collationOf table)).getD "BINARY"
      return ⟨column?, collation, term.isDescending && honoursOrder⟩

def partOf (table : Table) (place : Nat) : KeyPart := ⟨some place, collationOf table place, false⟩

/-- Makes a column part of the key. -/
def markKey (draft : Draft) (place : Nat) : Except String Draft := do
  let draft := draft.change place fun column ↦ { column with isKey := true }
  match draft.column? place with
  | some column =>
    if column.generation?.isSome then
      throw "generated columns cannot be part of the PRIMARY KEY"
    return draft
  | none => return draft

/-- Sets the key, of one column if `only?` tells it, which is another name for the row number
if it is one of whole numbers. -/
def setKey (draft : Draft) (only? : Option Nat) (isAscending countsUp : Bool)
    (parts : Unit → Except String (List KeyPart)) : Except String Draft := do
  let isInteger := ((only?.bind draft.column?).map fun column ↦
    isType column.type "INTEGER").getD false
  if isInteger && isAscending then
    return { draft with table.alias? := only?, countsUp }
  if countsUp then throw "AUTOINCREMENT is only allowed on an INTEGER PRIMARY KEY"
  return draft.addIndex .primaryKey (← parts ())

def beginKey (draft : Draft) : Except String Draft :=
  if draft.hasKey then
    .error ("table \"" ++ draft.table.name ++ "\" has more than one primary key")
  else .ok { draft with hasKey := true }

/-- The rule that the last column is the key. -/
def keyOnLast (draft : Draft) (isDescending honoursOrder countsUp : Bool) :
    Except String Draft := do
  let draft ← (← draft.beginKey).markKey draft.last
  draft.setKey (some draft.last) (!isDescending) countsUp fun _ ↦
    .ok [{ partOf draft.table draft.last with isDescending := isDescending && honoursOrder }]

/-- The rule that some terms are the key. -/
def keyOnTerms (draft : Draft) (terms : List KeyTerm) (honoursOrder countsUp : Bool) :
    Except String Draft := do
  let draft ← draft.beginKey
  let places := terms.map fun term ↦
    match bare (asName term.expression) with
    | .name name _ => draft.table.columnIndex? name
    | _ => none
  let draft ← (places.filterMap id).foldlM markKey draft
  let only? := match places with
    | [place?] => place?
    | _ => none
  let draft := { draft with
    aliasIsDescending := terms.head?.map KeyTerm.isDescending = some true && honoursOrder }
  draft.setKey only? true countsUp fun _ ↦ parts draft.table false honoursOrder terms

def setCollation (draft : Draft) (collation : String) : Draft :=
  let place := draft.last
  let draft := draft.change place fun column ↦ { column with collation }
  let indexes := draft.table.indexes.map fun index ↦
    { index with parts := index.parts.map fun part ↦
        if part.column? = some place then { part with collation } else part }
  { draft with table.indexes := indexes }

/-- Whether an expression is the same for all rows. -/
def isConstant : Expression → Bool
  | .name name spelling => spelling = .bare && (truth? name).isSome
  | .qualified | .query | .raise => false
  | .unary _ a | .collated a _ | .cast a _ => isConstant a
  | .binary _ a b => isConstant a && isConstant b
  | .between _ a b c => isConstant a && isConstant b && isConstant c
  | .call _ arguments => areConstant arguments
  | .row members => areConstant members
  | .among _ a members => isConstant a && areConstant members
  | .choice base? conditions results otherwise? =>
    isConstantIfAny base? && areConstant conditions && areConstant results &&
      isConstantIfAny otherwise?
  | .null | .number .. | .string _ | .blob _ | .now | .parameter | .callAll _ => true
where
  areConstant : List Expression → Bool
    | [] => true
    | first :: rest => isConstant first && areConstant rest
  isConstantIfAny : Option Expression → Bool
    | none => true
    | some expression => isConstant expression

def setDefault (draft : Draft) (value : Expression) : Except String Draft :=
  match draft.column? draft.last with
  | none => .ok draft
  | some column =>
    if !isConstant value then
      .error ("default value of column [" ++ column.name ++ "] is not constant")
    else if column.generation?.isSome then .error "cannot use DEFAULT on a generated column"
    else .ok (draft.change draft.last fun column ↦ { column with default? := some value })

/-- The rule that the last column is computed; `kind?` may tell whether it is stored. -/
def setGeneration (draft : Draft) (expression : Expression) (kind? : Option String) :
    Except String Draft :=
  match draft.column? draft.last with
  | none => .ok draft
  | some column => do
    let isStored ← match kind?.map String.toLower with
      | none | some "virtual" => pure false
      | some "stored" => pure true
      | some _ => throw ("error in generated column \"" ++ column.name ++ "\"")
    if column.default?.isSome then
      throw ("error in generated column \"" ++ column.name ++ "\"")
    if column.isKey then throw "generated columns cannot be part of the PRIMARY KEY"
    return draft.change draft.last fun column ↦
      { column with generation? := some ⟨expression, isStored⟩ }

/-- In a strict table every column has one of the usual types, and one of any type keeps
every value as it is. -/
def strict (draft : Draft) : Except String Draft := do
  for column in draft.table.columns do
    if column.type.isEmpty then
      throw ("missing datatype for " ++ draft.table.name ++ "." ++ column.name)
    if !(usualTypes.any fun name ↦ isType column.type name) then
      throw ("unknown datatype for " ++ draft.table.name ++ "." ++ column.name ++ ": \"" ++
        String.ofList (plainType column.type) ++ "\"")
  let columns := draft.table.columns.map fun column ↦
    if isType column.type "ANY" then { column with affinity := .blob } else column
  return { draft with table.columns := columns }

/-- The parts of a key, each but the first time it stands there left out. -/
def distinct (parts : List KeyPart) : List KeyPart :=
  parts.foldl
    (fun kept part ↦
      if kept.any fun other ↦ sameParts [other] [part] then kept else kept ++ [part])
    []

/-- Keeps the rows by their key. -/
def keyed (draft : Draft) : Except String Draft := do
  if draft.countsUp then throw "AUTOINCREMENT not allowed on WITHOUT ROWID tables"
  if !draft.hasKey then throw ("PRIMARY KEY missing on table " ++ draft.table.name)
  let draft := match draft.table.alias? with
    | some place =>
      { draft with table.alias? := none }.addIndex .primaryKey
        [{ partOf draft.table place with isDescending := draft.aliasIsDescending }]
    | none => draft
  let indexes := draft.table.indexes.map fun index ↦
    if index.origin = .primaryKey then
      { index with root := draft.table.root, parts := distinct index.parts }
    else index
  return { draft with table.isKeyed := true, table.indexes := indexes }

/-- The table, if what its computed columns say means something. -/
def finish (draft : Draft) : Except String Table := do
  let generations := draft.table.columns.filterMap Column.generation?
  let fault? := generations.foldl
    (fun fault? generation ↦
      Meaning.faultAfter draft.table .generatedColumn fault? generation.expression)
    none
  match fault? with
  | some reason => throw reason
  | none =>
    if generations.length = draft.table.columns.length && !generations.isEmpty then
      throw "must have at least one non-generated column"
    return draft.table

end Draft

end TreeAudit.Database
