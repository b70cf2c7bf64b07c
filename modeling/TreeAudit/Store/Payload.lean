import TreeAudit.Document.Basic
import TreeAudit.Json.Skip

/-!
Payloads: the JSON text under which a store keeps one document. Five members are
recognised and all others are passed over; an id kept outside the payload takes
the place of its own. Only the id has to be of the right type. The parent is the
one given, or else the one the id tells, or else the one the path tells; a parent
that is given and is no string leaves the document without one.
-/

set_option autoImplicit false
set_option relaxedAutoImplicit false

namespace TreeAudit.Store

open Json

/-- Why a payload gives no document. -/
inductive PayloadError where
  | json (error : Json.Error)
  | noId
deriving DecidableEq

def PayloadError.message : PayloadError → String
  | json error => "json error: " ++ error.message
  | noId => "protocol error: document without _id"

/-- The recognised members, in the order in which a list gives their values. -/
inductive Field where
  | id
  | path
  | parent
  | deleted
  | children
deriving DecidableEq

namespace Field

def name : Field → String
  | id => "_id"
  | path => "_path"
  | parent => "_parent"
  | deleted => "_deleted"
  | children => "_children"

def all : List Field := [id, path, parent, deleted, children]

def ofName? (name : String) : Option Field :=
  all.find? fun field ↦ field.name = name

end Field

/-- What a payload says. A member may be missing or null, which is not the same
where it is looked at twice. -/
structure Payload where
  id : Option (Option String)
  path : Option Value
  parent : Option Value
  deleted : Option Value
  children : Option Value

namespace Payload

def empty : Payload := ⟨none, none, none, none, none⟩

def expected : String := "struct StoredDocument"

def has (payload : Payload) : Field → Bool
  | .id => payload.id.isSome
  | .path => payload.path.isSome
  | .parent => payload.parent.isSome
  | .deleted => payload.deleted.isSome
  | .children => payload.children.isSome

/-- An id is a string or null. -/
def readId (cursor : Cursor) : Except Json.Error (Option String × Cursor) :=
  let cursor := cursor.skipBlanks
  match cursor.rest with
  | 'n' :: _ => do
    let cursor ← cursor.next.word ['u', 'l', 'l']
    .ok (none, cursor)
  | '"' :: _ => do
    let (text, cursor) ← Chars.read cursor.next
    .ok (some text, cursor)
  | [] => .error (cursor.ahead .endInValue)
  | _ => .error (mismatch "a string" cursor)

/-- The nesting still allowed inside a payload. -/
def depth : Nat := Value.nestingLimit - 1

/-- Reads the value of a field into the payload. -/
def readField (payload : Payload) (field : Field) (cursor : Cursor) :
    Except Json.Error (Payload × Cursor) :=
  match field with
  | .id => do
    let (id, cursor) ← readId cursor
    .ok ({ payload with id := some id }, cursor)
  | .path => do
    let (value, cursor) ← Value.read depth cursor
    .ok ({ payload with path := some value }, cursor)
  | .parent => do
    let (value, cursor) ← Value.read depth cursor
    .ok ({ payload with parent := some value }, cursor)
  | .deleted => do
    let (value, cursor) ← Value.read depth cursor
    .ok ({ payload with deleted := some value }, cursor)
  | .children => do
    let (value, cursor) ← Value.read depth cursor
    .ok ({ payload with children := some value }, cursor)

/-- A repeated name is noticed before the blanks that follow it are read, and
reported after them. -/
def duplicate (field : Field) (cursor : Cursor) : Json.Error :=
  let cursor := cursor.skipBlanks
  let cursor := if cursor.rest.head? = some '\x7d' then cursor.next else cursor
  cursor.here (.duplicateField field.name)

/-- The members of an object, up to and with its closing bracket. -/
def readMembers (steps : Nat) (payload : Payload) (first : Bool) (cursor : Cursor) :
    Except Json.Error (Payload × Cursor) :=
  match steps with
  | 0 => .error (cursor.here .endInValue)
  | steps + 1 =>
    match Value.nextName first cursor with
    | .fault error => .error error
    | .close cursor => .ok (payload, cursor.next)
    | .part cursor => do
      let (name, cursor) ← Chars.read cursor
      match Field.ofName? name with
      | none =>
        let cursor ← Value.colon cursor
        let cursor ← Skip.skip cursor
        readMembers steps payload false cursor
      | some field =>
        if payload.has field then .error (duplicate field cursor)
        else
          let cursor ← Value.colon cursor
          let (payload, cursor) ← payload.readField field cursor
          readMembers steps payload false cursor

/-- The five values of a list, up to and with its closing bracket. -/
def readItems (count : Nat) (payload : Payload) (cursor : Cursor) :
    List Field → Except Json.Error (Payload × Cursor)
  | [] =>
    let cursor := cursor.skipBlanks
    match cursor.rest with
    | [] => .error (cursor.ahead .endInList)
    | ']' :: _ => .ok (payload, cursor.next)
    | ',' :: _ =>
      let cursor := cursor.next.skipBlanks
      if cursor.rest.head? = some ']' then .error (cursor.ahead .trailingComma)
      else .error (cursor.ahead .trailingCharacters)
    | _ => .error (cursor.ahead .trailingCharacters)
  | field :: fields =>
    match Value.nextItem (count = 0) cursor with
    | .fault error => .error error
    | .close cursor =>
      .error (cursor.next.here (.invalidLength count (expected ++ " with 5 elements")))
    | .part cursor => do
      let (payload, cursor) ← payload.readField field cursor
      readItems (count + 1) payload cursor fields

/-- The payload a whole text holds. -/
def ofText (text : List Char) : Except Json.Error Payload := do
  let cursor := (Cursor.ofText text).skipBlanks
  let (payload, cursor) ←
    match cursor.rest with
    | [] => .error (cursor.ahead .endInValue)
    | '\x7b' :: _ => readMembers (cursor.rest.length + 1) empty true cursor.next
    | '[' :: _ => readItems 0 empty cursor.next Field.all
    | _ => .error (mismatch expected cursor)
  let cursor := cursor.skipBlanks
  if cursor.rest.isEmpty then .ok payload else .error (cursor.ahead .trailingCharacters)

def parentOf (payload : Payload) (id : DocumentId) : Option DocumentId :=
  match payload.parent with
  | some (.string parent) => some ⟨parent⟩
  | some .null | none =>
    match id.derivedParent? with
    | some parent => some parent
    | none =>
      match payload.path with
      | some (.string path) => (DocumentId.ofPath path.toList).derivedParent?
      | _ => none
  | some _ => none

def isDeleted (payload : Payload) : Bool :=
  match payload.deleted with
  | some (.bool deleted) => deleted
  | _ => false

/-- A document may have children unless its payload says nothing or no. -/
def mayHaveChildren (payload : Payload) : Bool :=
  match payload.children with
  | some (.bool children) => children
  | some .null | none => false
  | some _ => true

/-- The document stored under `id`. -/
def document (payload : Payload) (id : DocumentId) : Document where
  id := id
  parent := payload.parentOf id
  kind := if id.isSplit then .split else if payload.isDeleted then .deleted else .node
  hasChildren := payload.mayHaveChildren

end Payload

/-- The document a payload holds, under `key` if the store keeps the id outside
of it. -/
def decode (key : Option DocumentId) (payload : String) : Except PayloadError Document :=
  match Payload.ofText payload.toList with
  | .error error => .error (.json error)
  | .ok payload =>
    match key, payload.id with
    | some key, _ => .ok (payload.document key)
    | none, some (some id) => .ok (payload.document ⟨id⟩)
    | none, _ => .error .noId

end TreeAudit.Store
