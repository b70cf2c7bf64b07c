import TreeAudit.Database.Payload
import TreeAudit.Database.Value

/-!
Records: a header of numbers that tell the type and the width of each value, then the
values. A header says its own size first. Values behind the last one are not there, and a
header or a value that goes beyond the end is a fault, which is noticed only by who asks for
that value or a later one.
-/

set_option autoImplicit false
set_option relaxedAutoImplicit false

namespace TreeAudit.Database

open Bytes

namespace Record

/-- The widths of whole numbers, by their types from one on. -/
def integerWidths : List Nat := [1, 2, 3, 4, 6, 8]

/-- How many bytes a value of some type takes. -/
def width (type : Nat) : Nat :=
  if 12 ≤ type then (type - 12) / 2
  else if type = 7 then 8
  else if type = 0 then 0
  else integerWidths[type - 1]?.getD 0

/-- The value of some type in bytes of its width. -/
def value (encoding : Encoding) (type : Nat) (bytes : List UInt8) : Value :=
  if 12 ≤ type then
    if type % 2 = 0 then .blob bytes else .text (encoding.decode bytes)
  else
    let number := numberAt ⟨bytes.toArray⟩ 0 bytes.length
    match type with
    | 7 =>
      let x := SignedBinary64.ofBits number
      if x.magnitude = .nan then .null else .real x
    | 8 => .integer 0
    | 9 => .integer 1
    | 0 | 10 | 11 => .null
    | _ => .integer (signed (8 * bytes.length) number)

/-- A place in a header: the offset of the next type there, and of its value. -/
structure Place where
  header : Nat
  value : Nat

/-- A value of a record, by its type and its offset. -/
structure Slot where
  type : Nat
  offset : Nat

/-- Goes on in a header that ends at `stop` until past the value with some index, or to its
end. The first type is read in any case. Gives the value, if it is there, and where the
reading came to. -/
def seek (header : ByteArray) (stop : Nat) : (index : Nat) → Place → Option Slot × Place
  | 0, place =>
    let (type, next) := shortVaryingAt header place.header
    (some ⟨type, place.value⟩, ⟨next, place.value + width type⟩)
  | index + 1, place =>
    let (type, next) := shortVaryingAt header place.header
    let place : Place := ⟨next, place.value + width type⟩
    if next < stop then seek header stop index place else (none, place)

/-- The value with some index in a header of a size, the types in which start at `start`. -/
def slot? (payload : Payload) (header : ByteArray) (size start index : Nat) :
    Except Fault (Option Slot) :=
  let (slot?, place) := seek header size index ⟨start, size⟩
  let isWrong :=
    (size ≤ place.header && (size < place.header || place.value ≠ payload.size)) ||
      payload.size < place.value
  if !isWrong then .ok slot?
  else if size = 0 then .ok none
  else .error .malformed

/-- The size of a header, and where the types in it start. -/
def headerSize (payload : Payload) : Nat × Nat :=
  let (size, start) := shortVaryingAt payload.page payload.start
  (size, start - payload.start)

/-- The largest header that any table can need. -/
def largestHeader : Nat := 98307

def longestValue : Nat := 1000000000

/-- The value with some index, if the record has so many. -/
def column (encoding : Encoding) (payload : Payload) (index : Nat) :
    Except Fault (Option Value) := do
  let (size, start) := headerSize payload
  if size ≤ payload.inPage then
    let header := payload.page.extract payload.start payload.page.size
    match ← slot? payload header size start index with
    | none => return none
    | some slot =>
      let stop := slot.offset + width slot.type
      if stop ≤ payload.inPage then
        let offset := payload.start + slot.offset
        let bytes := payload.page.extract offset (offset + width slot.type)
        return some (value encoding slot.type bytes.toList)
      distant slot
  else
    if largestHeader < size || payload.size < size then throw .malformed
    if size ≤ start then return none
    match ← slot? payload (← payload.front size) size start index with
    | none => return none
    | some slot => distant slot
where
  /-- The value of which some is not in the page. -/
  distant (slot : Slot) : Except Fault (Option Value) := do
    let width := width slot.type
    if longestValue < width then throw .tooBig
    let read := if 4000 < width && !payload.isKeyed then payload.read else payload.readBounded
    let bytes ← if width = 0 then pure [] else read slot.offset width
    return some (value encoding slot.type bytes)

/-- The row number at the end of a key, which has to be a whole number. -/
def rowid (payload : Payload) : Except Fault Int := do
  let record ← payload.front payload.size
  let (headerSize, _) := shortVaryingAt record 0
  if headerSize < 3 || record.size < headerSize then throw .malformed
  let (type, _) := shortVaryingAt record (headerSize - 1)
  if type = 0 || type = 7 || 9 < type || record.size < headerSize + width type then
    throw .malformed
  let bytes := record.extract (record.size - width type) record.size
  match value .utf8 type bytes.toList with
  | .integer rowid => return rowid
  | _ => throw .malformed

end Record

end TreeAudit.Database
