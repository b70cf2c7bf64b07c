import TreeAudit.Database.Record

/-!
Keys, and how the records in the cells of a tree by keys are ordered against them. A record
is read only as far as its order is not settled, and only what is read of it can be at
fault. Of records that are all in the page of their cell, less is asked where texts are
ordered by their bytes.
-/

set_option autoImplicit false
set_option relaxedAutoImplicit false

namespace TreeAudit.Database

open Bytes

/-- A part of a key: a value, and how it is ordered. -/
structure KeyValue where
  value : Value
  collation : Collation
  isDescending : Bool

/-- The first parts of keys in a tree. -/
structure Key where
  encoding : Encoding
  parts : List KeyValue
  /-- How many values the keys in the tree have. -/
  count : Nat

namespace KeyValue

/-- The order of the value of some type at an offset against a part of a key. `size` is that of
the record. -/
def order (part : KeyValue) (encoding : Encoding) (record : ByteArray) (size type offset : Nat) :
    Except Fault Ordering :=
  let width := Record.width type
  let value := Record.value encoding type (record.extract offset (offset + width)).toList
  let isText := 12 ≤ type && type % 2 = 1
  let isBlob := 12 ≤ type && type % 2 = 0
  let order := Value.order encoding part.collation value part.value
  match part.value with
  | .text _ =>
    if isText && size < offset + width then .error .malformed
    else .ok (if isText then order else if isBlob then .gt else .lt)
  | .blob _ =>
    if isBlob && size < offset + width then .error .malformed
    else .ok (if isBlob then order else .lt)
  | _ => .ok (if type = 10 then .lt else if 11 ≤ type then .gt else order)

def directed (part : KeyValue) (order : Ordering) : Ordering :=
  if part.isDescending then order.swap else order

end KeyValue

namespace Key

/-- The order of a record from some value on, its type being at `place`. -/
def orderFrom (encoding : Encoding) (record : ByteArray) (size header : Nat) :
    List KeyValue → (place offset : Nat) → Except Fault Ordering
  | [], _, _ => .ok .eq
  | part :: rest, place, offset => do
    let (type, next) := shortVaryingAt record place
    let order ← part.order encoding record size type offset
    if order ≠ .eq then return part.directed order
    let following := offset + Record.width type
    if rest.isEmpty || size < following then return .eq
    if header ≤ next then throw .malformed
    orderFrom encoding record size header rest next following

/-- The order of a record of some size. -/
def orderRecord (key : Key) (record : ByteArray) (size : Nat) : Except Fault Ordering :=
  let (header, place) := shortVaryingAt record 0
  if size < header then .error .malformed
  else orderFrom key.encoding record size header key.parts place header

/-- The greatest number of values in keys for which the first text is compared directly. -/
def directCount : Nat := 13

/-- The order of a record that is all in a page, if the key begins with a text that is ordered
by its bytes. -/
def orderByText (key : Key) (first : KeyValue) (record : ByteArray) (size : Nat) :
    Except Fault Ordering := do
  let header := byteAt record 0
  let (type, next) := shortVaryingAt record 1
  let order ← first.order key.encoding record size type header
  if order ≠ .eq then return first.directed order
  let following := header + Record.width type
  if key.parts.length ≤ 1 then return .eq
  if size < following then throw .malformed
  orderFrom key.encoding record size header (key.parts.drop 1) next following

/-- The order of the record in a cell against a key. -/
def order (key : Key) (image : Image) (cell : TreeCell) : Except Fault Ordering := do
  let payload := (cell.payload image).1
  let size := payload.size
  if payload.kept = size && payload.start + size ≤ payload.page.size then
    let record := payload.page.extract payload.start payload.page.size
    match key.parts with
    | first :: _ =>
      if first.value.kind = .text && first.collation = .binary && key.count ≤ directCount then
        key.orderByText first record size
      else key.orderRecord record size
    | [] => return .eq
  else
    if size < 2 || image.pageCount < size / image.usable then throw .malformed
    key.orderRecord ⟨(← payload.read 0 size).toArray⟩ size

end Key

end TreeAudit.Database
