import TreeAudit.Database.Tree

/-!
What a cell carries. As much of it as fits stands in the page of the cell, the rest in a
chain of further pages, each of which begins with the number of the next.
-/

set_option autoImplicit false
set_option relaxedAutoImplicit false

namespace TreeAudit.Database

open Bytes

structure Payload where
  image : Image
  /-- The page of the cell. -/
  page : ByteArray
  /-- Whether the cell is one of a tree by keys. -/
  isKeyed : Bool
  start : Nat
  /-- How many bytes are in the page. -/
  kept : Nat
  size : Nat

namespace Image

/-- How much of a payload a page may keep. -/
def largestKept (image : Image) (isKeyed : Bool) : Nat :=
  if isKeyed then (image.usable - 12) * 64 / 255 - 23 else image.usable - 35

/-- How much of a payload a page keeps that keeps not all of it, at the least. -/
def leastKept (image : Image) : Nat := (image.usable - 12) * 32 / 255 - 23

/-- How much of a payload a page of a chain holds. -/
def chainedSize (image : Image) : Nat := image.usable - 4

/-- How much of a payload its page keeps: everything, or what leaves no page of the chain in
part unused, or the least. -/
def keptOf (image : Image) (isKeyed : Bool) (size : Nat) : Nat :=
  let largest := image.largestKept isKeyed
  let fitting := image.leastKept + (size - image.leastKept) % image.chainedSize
  if size ≤ largest then size else if fitting ≤ largest then fitting else image.leastKept

end Image

/-- The size of a payload: seven bits in a byte, of at most nine bytes, and 32 bits of them
count. Gives the size and the offset behind it. -/
def sizeFrom (bytes : ByteArray) : (left offset value : Nat) → Nat × Nat
  | 0, offset, value => (value % 0x100000000, offset)
  | left + 1, offset, value =>
    let byte := byteAt bytes offset
    let value := 128 * value + byte % 128
    if byte < 128 then (value % 0x100000000, offset + 1)
    else sizeFrom bytes left (offset + 1) value

namespace TreeCell

/-- The payload of a cell, and its row number if it has one. -/
def payload (image : Image) (cell : TreeCell) : Payload × Int :=
  let page := cell.page
  let offset := page.cellOffset cell.index + (if page.isLeaf then 0 else 4)
  let (size, offset) := sizeFrom page.content 9 offset 0
  let (rowid, start) := if page.isKeyed then (0, offset) else varyingAt page.content offset
  (⟨image, page.content, page.isKeyed, start, image.keptOf page.isKeyed size, size⟩,
    signed 64 rowid)

/-- The row number of a cell of a tree by row numbers, found without a look at the rest. -/
def rowid (cell : TreeCell) : Int :=
  let page := cell.page
  let offset := page.cellOffset cell.index
  let offset := if page.isLeaf then (sizeFrom page.content 9 offset 0).2 else offset + 4
  signed 64 (varyingAt page.content offset).1

end TreeCell

namespace Payload

/-- How many bytes of the payload are in the page, if the page does not end before. -/
def inPage (payload : Payload) : Nat := min payload.kept (payload.page.size - payload.start)

/-- Reads bytes along a chain: `skipped` are passed over, and `amount` more than none are
read. `before` have been read in front of them; if those have room for the number of the
next page, a page that is in the file only has to be there as far as it is read. -/
def chained (image : Image) : (fuel next skipped amount before : Nat) →
    Except Fault (List UInt8)
  | 0, _, _, _, _ => .error .malformed
  | fuel + 1, next, skipped, amount, before => do
    if next = 0 || image.pageCount < next then throw .malformed
    let content := image.content next
    let following := numberAt content 0 4
    if image.chainedSize ≤ skipped then
      chained image fuel following (skipped - image.chainedSize) amount before
    else
      let taken := min amount (image.chainedSize - skipped)
      if skipped = 0 && 4 ≤ before && !image.isInLog next && !image.isInFile next (taken + 4) then
        throw .cutShort
      let bytes := (content.extract (4 + skipped) (4 + skipped + taken)).toList
      if taken = amount then return bytes
      return bytes ++ (← chained image fuel following 0 (amount - taken) (before + taken))

/-- Bytes of a payload from an offset. -/
def read (payload : Payload) (offset amount : Nat) : Except Fault (List UInt8) := do
  let image := payload.image
  if image.usable < payload.start + payload.kept then throw .malformed
  let here := payload.start + offset
  let taken := min amount (payload.kept - offset)
  let bytes := (payload.page.extract here (here + taken)).toList
  if taken = amount then return bytes
  let next := numberAt payload.page (payload.start + payload.kept) 4
  let pages := (offset + amount) / image.chainedSize + 2
  return bytes ++
    (← chained image pages next (offset - payload.kept) (amount - taken) taken)

/-- Bytes of a payload from an offset, which cannot be more than the database has. -/
def readBounded (payload : Payload) (offset amount : Nat) : Except Fault (List UInt8) :=
  if payload.image.pageSize * payload.image.pageCount < offset + amount then .error .malformed
  else payload.read offset amount

/-- The first bytes of a payload, from the page if they are in it. -/
def front (payload : Payload) (amount : Nat) : Except Fault ByteArray :=
  if amount ≤ payload.inPage then
    .ok (payload.page.extract payload.start (payload.start + amount))
  else (payload.readBounded 0 amount).map fun bytes ↦ ⟨bytes.toArray⟩

end Payload

end TreeAudit.Database
