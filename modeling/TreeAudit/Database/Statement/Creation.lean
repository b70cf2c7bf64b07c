import TreeAudit.Database.Draft
import TreeAudit.Database.Statement.ExpressionReader

/-!
Statements that create something, as a database keeps them for all that it has. Each is read
together with its entry, which tells the kind and the names that the statement has to have
too. Of what has no part in answers, only the beginning is read.
-/

set_option autoImplicit false
set_option relaxedAutoImplicit false

namespace TreeAudit.Database.Statement

/-- What is known when a statement is read. -/
structure Entry where
  kind? : Option String
  name? : Option String
  tableName? : Option String
  root : Nat
  statement : List Char
  /-- What the database has so far. -/
  schema : Schema
  /-- Whether the database keeps anything in descending order. -/
  honoursOrder : Bool

namespace Creation

open Reader

/-- Takes what has become of a draft, or says what is wrong and leaves it as it was. -/
def settle (draft : Draft) : Except String Draft → Reader Draft
  | .ok draft => return draft
  | .error reason => do
    object reason
    return draft

def agrees (told? : Option String) (name : String) : Bool :=
  (told?.map fun told ↦ sameName told name).getD false

/-- Whether a statement creates what its entry tells. -/
def checkEntry (entry : Entry) (kind name tableName : String) : Reader Bool := do
  if agrees entry.kind? kind && agrees entry.name? name && agrees entry.tableName? tableName then
    return true
  object ""
  return false

def ifNotExists : Reader Bool := do
  if ← keyword? "IF" then
    keywords ["NOT", "EXISTS"]
    return true
  return false

/-- What to do about conflicts. -/
def conflict : Reader Unit := do
  if ← keyword? "ON" then
    keyword "CONFLICT"
    let _ ← demand fun token ↦
      ["ROLLBACK", "ABORT", "FAIL", "IGNORE", "REPLACE"].contains token.keyword

/-- Whether an order is descending. -/
def descending : Reader Bool := do
  if ← keyword? "DESC" then return true
  let _ ← keyword? "ASC"
  return false

def deferral : Reader Unit := do
  if ← keyword? "INITIALLY" then
    let _ ← demand fun token ↦ ["DEFERRED", "IMMEDIATE"].contains token.keyword

/-- Names in parentheses, if there are any. -/
def nameList? : Reader (Option (List String)) := do
  if ← sign? "(" then
    let names ← separated "," do
      let column ← name
      if ← keyword? "COLLATE" then
        let _ ← demand isTypeWord
      let _ ← descending
      return column
    sign ")"
    return some names
  return none

/-- What is to be done with a row when the one it refers to changes. -/
def reaction : Reader Unit := do
  let _ ← demand fun token ↦ ["INSERT", "DELETE", "UPDATE"].contains token.keyword
  if ← keyword? "SET" then
    let _ ← demand fun token ↦ ["NULL", "DEFAULT"].contains token.keyword
  else if ← keyword? "NO" then keyword "ACTION"
  else
    let _ ← demand fun token ↦ ["CASCADE", "RESTRICT"].contains token.keyword

/-- What a reference to another table asks for. -/
def referenceRules : Reader Unit := do
  let _ ← many do
    if ← keyword? "MATCH" then
      let _ ← name
      return some ()
    if ← keyword? "ON" then
      reaction
      return some ()
    return none

/-- A reference from some columns of the table, or from the last one. -/
def reference (draft : Draft) (columns? : Option (List String)) : Reader Unit := do
  let target ← demand isName
  let others? ← nameList?
  referenceRules
  match columns?, others? with
  | none, some others =>
    if others.length ≠ 1 then
      object ("foreign key on " ++ ((draft.column? draft.last).map Column.name).getD "" ++
        " should reference only one column of table " ++ String.ofList target.text)
  | some columns, _ =>
    if (others?.map List.length).getD columns.length ≠ columns.length then
      object ("number of columns in foreign key does not match the number of columns in the " ++
        "referenced table")
    else
      match columns.find? fun column ↦ (draft.table.columnIndex? column).isNone with
      | some column => object ("unknown column \"" ++ column ++ "\" in foreign key definition")
      | none => pure ()
  | none, none => pure ()

/-- A value that a column has when none is given. -/
def defaultValue (entry : Entry) : Reader Expression := do
  if ← sign? "(" then
    let value ← expression entry.statement
    sign ")"
    return value
  if ← sign? "+" then return ← literal
  if ← sign? "-" then return .unary .minus (← literal)
  match ← literal? with
  | some value => return value
  | none =>
    let token ← demand fun token ↦
      isPlainName token && (isTypeWord token || token.keyword = "INDEXED")
    if (truth? (nameOf token)).isSome then return .name (nameOf token) .bare
    return .string token.unquoted
where
  literal : Reader Expression := do
    match ← literal? with
    | some value => return value
    | none => unexpected

/-- A computed value. -/
def generation (entry : Entry) (draft : Draft) : Reader Draft := do
  sign "("
  let value ← expression entry.statement
  sign ")"
  let kind? ← if ← sees fun token ↦ isTypeWord token && token.kind = .word then
      pure (some (String.ofList (← next).text))
    else pure none
  settle draft (draft.setGeneration value kind?)

/-- One rule of a column, if any follows. -/
def columnRule? (entry : Entry) (draft : Draft) : Reader (Option Draft) := do
  if ← keyword? "CONSTRAINT" then
    let _ ← name
    return some draft
  if ← keyword? "DEFAULT" then
    let value ← defaultValue entry
    let _ ← peek?
    return some (← settle draft (draft.setDefault value))
  if ← keyword? "NULL" then
    conflict
    return some draft
  if ← keyword? "NOT" then
    if ← keyword? "DEFERRABLE" then deferral
    else
      keyword "NULL"
      conflict
    return some draft
  if ← keyword? "DEFERRABLE" then
    deferral
    return some draft
  if ← keyword? "PRIMARY" then
    keyword "KEY"
    let isDescending ← descending
    conflict
    let countsUp ← keyword? "AUTOINCREMENT"
    return some (← settle draft (draft.keyOnLast isDescending entry.honoursOrder countsUp))
  if ← keyword? "UNIQUE" then
    conflict
    return some (draft.addIndex .uniqueRule [Draft.partOf draft.table draft.last])
  if ← keyword? "CHECK" then
    sign "("
    let _ ← expression entry.statement
    sign ")"
    return some draft
  if ← keyword? "REFERENCES" then
    reference draft none
    return some draft
  if ← keyword? "COLLATE" then
    return some (draft.setCollation (nameOf (← demand isTypeWord)))
  if ← keyword? "GENERATED" then
    keywords ["ALWAYS", "AS"]
    return some (← generation entry draft)
  if ← keyword? "AS" then return some (← generation entry draft)
  return none

/-- Reads rules as long as there are any. -/
def columnRules (entry : Entry) : (fuel : Nat) → Draft → Reader Draft
  | 0, draft => return draft
  | fuel + 1, draft => do
    match ← columnRule? entry draft with
    | some draft => columnRules entry fuel draft
    | none => return draft

def column (entry : Entry) (draft : Draft) : Reader Draft := do
  let called ← name
  let words ← type
  let _ ← peek?
  let draft ← settle draft (draft.addColumn called (spelled entry.statement words))
  columnRules entry (← left) draft

/-- The terms of a key, in parentheses that have been opened. Gives too whether numbers are
counted up. -/
def terms (entry : Entry) : Reader (List KeyTerm × Bool) := do
  let terms ← separated "," do
    let value ← expression entry.statement
    let isDescending ← descending
    if ← keyword? "NULLS" then
      let place ← demand fun token ↦ ["FIRST", "LAST"].contains token.keyword
      object ("unsupported use of NULLS " ++ place.keyword)
    return ⟨value, isDescending⟩
  let countsUp ← keyword? "AUTOINCREMENT"
  sign ")"
  return (terms, countsUp)

/-- One rule of a table, if any follows. -/
def tableRule? (entry : Entry) (draft : Draft) : Reader (Option Draft) := do
  if ← keyword? "CONSTRAINT" then
    let _ ← name
    return some draft
  if ← keyword? "PRIMARY" then
    keyword "KEY"
    sign "("
    let (terms, countsUp) ← terms entry
    conflict
    let _ ← peek?
    return some (← settle draft (draft.keyOnTerms terms entry.honoursOrder countsUp))
  if ← keyword? "UNIQUE" then
    sign "("
    let (terms, _) ← terms entry
    conflict
    let _ ← peek?
    return some (← settle draft
      ((Draft.parts draft.table false entry.honoursOrder terms).map (draft.addIndex .uniqueRule)))
  if ← keyword? "CHECK" then
    sign "("
    let _ ← expression entry.statement
    sign ")"
    conflict
    return some draft
  if ← keyword? "FOREIGN" then
    keyword "KEY"
    let columns? ← nameList?
    if columns?.isNone then unexpected
    keyword "REFERENCES"
    reference draft columns?
    let isNegated ← keyword? "NOT"
    if ← keyword? "DEFERRABLE" then deferral
    else if isNegated then unexpected
    return some draft
  return none

def startsTableRule : Reader Bool :=
  sees fun token ↦
    ["CONSTRAINT", "PRIMARY", "UNIQUE", "CHECK", "FOREIGN"].contains token.keyword

/-- Reads the rules of a table, between which there need be no commas. -/
def tableRules (entry : Entry) : (fuel : Nat) → Draft → Reader Draft
  | 0, draft => return draft
  | fuel + 1, draft => do
    match ← tableRule? entry draft with
    | some draft =>
      if ← sign? "," then
        if !(← startsTableRule) then unexpected
      tableRules entry fuel draft
    | none => return draft

/-- Reads columns, and the rules behind them. -/
def columns (entry : Entry) : (fuel : Nat) → Draft → Reader Draft
  | 0, draft => return draft
  | fuel + 1, draft => do
    let draft ← column entry draft
    if ← sign? "," then
      if ← startsTableRule then tableRules entry (← left) draft
      else columns entry fuel draft
    else return draft

/-- What a table is besides its columns. -/
structure Options where
  isKeyed : Bool
  isStrict : Bool

def withOption (options : Options) : Reader Options := do
  if ← keyword? "WITHOUT" then
    let word ← demand isName
    if sameName (String.ofList word.text) "rowid" then return { options with isKeyed := true }
    object ("unknown table option: " ++ String.ofList word.text)
    return options
  let word ← demand isName
  if sameName (String.ofList word.text) "strict" then return { options with isStrict := true }
  object ("unknown table option: " ++ String.ofList word.text)
  return options

/-- Options with commas between them. The first may be left out. -/
def options : Reader Options := do
  let plain : Options := ⟨false, false⟩
  let first ← if ← sees isName then withOption plain else pure plain
  more (← left) first
where
  more : Nat → Options → Reader Options
    | 0, options => return options
    | fuel + 1, options => do
      if ← sign? "," then more fuel (← withOption options) else return options

/-- The name of what is created, and whether it may be created; `kind` is what the entry has
to call it. -/
def subject (entry : Entry) (kind : String) : Reader (String × Bool) := do
  let mayExist ← ifNotExists
  let token ← demand isName
  let called := nameOf token
  if ← sign? "." then
    let _ ← name
    let _ ← peek?
    object "corrupt database"
    return (called, false)
  let _ ← peek?
  if !(← checkEntry entry kind called called) then return (called, false)
  match entry.schema.table? called with
  | some other =>
    if !mayExist then
      let kind := if other.kind = .view then "view " else "table "
      object (kind ++ String.ofList token.text ++ " already exists")
    return (called, false)
  | none =>
    if (entry.schema.index? called).isSome then
      object ("there is already an index named " ++ called)
      return (called, false)
    return (called, true)

def withTable (entry : Entry) (table : Table) : Schema := ⟨entry.schema.tables ++ [table]⟩

/-- What is done at the end of the declaration of a table. -/
def complete (draft : Draft) (options : Options) : Except String Table := do
  let draft ← if options.isStrict then draft.strict else pure draft
  let draft ← if options.isKeyed then draft.keyed else pure draft
  draft.finish

def table (entry : Entry) : Reader Schema := do
  let (called, isNew) ← subject entry "table"
  if ← keyword? "AS" then
    if !(← seesQuery) then unexpected
    skipStatement
    object ""
    finish
    return entry.schema
  sign "("
  let draft ← columns entry (← left) (Draft.start called .stored entry.root)
  sign ")"
  let options ← options
  let _ ← peek?
  let completed := complete draft options
  let schema ← match completed with
    | .ok table => pure (if isNew then withTable entry table else entry.schema)
    | .error reason => do
      if isNew then object reason
      pure entry.schema
  finish
  return schema

def index (entry : Entry) : Reader Schema := do
  let mayExist ← ifNotExists
  let called ← name
  let isQualified ← sign? "."
  if isQualified then
    let _ ← name
  keyword "ON"
  let tableName ← name
  sign "("
  let (terms, _) ← terms entry
  let condition? ← if ← keyword? "WHERE" then pure (some (← expression entry.statement))
    else pure none
  let _ ← peek?
  let schema ← do
    if (← get).pending?.isSome then pure entry.schema
    else
      match ← settleIndex mayExist isQualified called tableName terms condition? with
      | .ok schema => pure schema
      | .error reason => do
        object reason
        pure entry.schema
  finish
  return schema
where
  settleIndex (mayExist isQualified : Bool) (called tableName : String) (terms : List KeyTerm)
      (condition? : Option Expression) : Reader (Except String Schema) := do
    if isQualified then return .error "corrupt database"
    match entry.schema.table? tableName with
    | none => return .error ("no such table: main." ++ tableName)
    | some table =>
      if table.kind = .view then return .error "views may not be indexed"
      if !table.isOrdinary then return .error "virtual tables may not be indexed"
      if !(← checkEntry entry "index" called table.name) then return .error ""
      if (entry.schema.index? called).isSome then
        return if mayExist then .ok entry.schema
          else .error ("index " ++ called ++ " already exists")
      return do
        match condition?.bind (Meaning.faultAfter table .indexCondition none) with
        | some reason => throw reason
        | none =>
          let parts ← Draft.parts table true entry.honoursOrder terms
          if table.indexes.any fun index ↦ index.root = entry.root then throw "invalid rootpage"
          let index : Index := ⟨called, .declared, entry.root, parts, condition?⟩
          return ⟨entry.schema.tables.map fun other ↦
            if sameName other.name table.name then
              { other with indexes := index :: other.indexes }
            else other⟩

def view (entry : Entry) : Reader Schema := do
  let (called, isNew) ← subject entry "view"
  let _ ← nameList?
  keyword "AS"
  if !(← seesQuery) then unexpected
  skipStatement
  finish
  let draft := Draft.start called .view 0
  return if isNew then withTable entry draft.table else entry.schema

/-- A table that some module provides, with whatever the module is to be told. -/
def provided (entry : Entry) : Reader Schema := do
  keyword "TABLE"
  let (called, isNew) ← subject entry "table"
  keyword "USING"
  let module ← name
  if ← sign? "(" then skipEnclosed
  finish
  let draft := Draft.start called (.provided module) entry.root
  return if isNew then withTable entry draft.table else entry.schema

/-- An action on changes of a table. -/
def trigger (entry : Entry) : Reader Schema := do
  let _ ← ifNotExists
  let called ← name
  if ← sign? "." then
    let _ ← name
  let _ ← many do
    if ← sees fun token ↦ token.keyword ≠ "ON" then return some (← next)
    return none
  keyword "ON"
  let tableName ← name
  let _ ← peek?
  match entry.schema.table? tableName with
  | none => object ("no such table: main." ++ tableName)
  | some table => discard (checkEntry entry "trigger" called table.name)
  skipStatements
  finish
  return entry.schema

/-- What the database has after the statement of an entry. -/
def statement (entry : Entry) : Reader Schema := do
  keyword "CREATE"
  if ← keyword? "UNIQUE" then
    keyword "INDEX"
    return ← index entry
  if ← keyword? "INDEX" then return ← index entry
  if ← keyword? "VIRTUAL" then return ← provided entry
  if !(← keyword? "TEMP") then
    let _ ← keyword? "TEMPORARY"
  if ← keyword? "TABLE" then return ← table entry
  if ← keyword? "VIEW" then return ← view entry
  if ← keyword? "TRIGGER" then return ← trigger entry
  unexpected

end Creation

/-- What a database has with an entry added. -/
def Entry.apply (entry : Entry) : Except String Schema :=
  Reader.run (Creation.statement entry) entry.statement

end TreeAudit.Database.Statement
