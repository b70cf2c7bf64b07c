import TreeAudit.Database.Bytes
import TreeAudit.Database.Fault

/-!
The log of a database: pages as they are to be after changes that the file itself has not
seen yet. A frame holds one page. Frames are good up to the first whose salt or checksum is
wrong, and what counts are the frames up to the last that ends a change.
-/

set_option autoImplicit false
set_option relaxedAutoImplicit false

namespace TreeAudit.Database

structure Log where
  bytes : ByteArray
  pageSize : Nat
  /-- The numbers of the pages in the log and the offsets of their contents, the newest first. -/
  pages : List (Nat × Nat)
  /-- The number of pages that the database has after the last change. -/
  pageCount : Nat

namespace Log

open Bytes

def headerSize : Nat := 32

def frameHeaderSize : Nat := 24

/-- The only version of the format. -/
def version : Nat := 3007000

def signature : Nat := 0x377F0682

/-- Two running sums over words of 32 bits. -/
structure Checksum where
  first : UInt32
  second : UInt32
deriving DecidableEq

def wordAt (bigEndian : Bool) (bytes : ByteArray) (offset : Nat) : UInt32 :=
  UInt32.ofNat (if bigEndian then numberAt bytes offset 4
    else byteAt bytes offset + 0x100 * byteAt bytes (offset + 1) +
      0x10000 * byteAt bytes (offset + 2) + 0x1000000 * byteAt bytes (offset + 3))

/-- Adds pairs of words to a checksum. -/
def Checksum.add (bigEndian : Bool) (bytes : ByteArray) (sum : Checksum) :
    (pairs offset : Nat) → Checksum
  | 0, _ => sum
  | pairs + 1, offset =>
    let first := sum.first + wordAt bigEndian bytes offset + sum.second
    let second := sum.second + wordAt bigEndian bytes (offset + 4) + first
    Checksum.add bigEndian bytes ⟨first, second⟩ pairs (offset + 8)

def checksumAt (bytes : ByteArray) (offset : Nat) : Checksum :=
  ⟨wordAt true bytes offset, wordAt true bytes (offset + 4)⟩

/-- Takes in the frames from an offset, of which at most `left` are to come. `pages` are
those of the frames before, and `log` is what the last change left. -/
def follow (bigEndian : Bool) (bytes : ByteArray) (log : Log) :
    (left offset : Nat) → Checksum → (pages : List (Nat × Nat)) → Log
  | 0, _, _, _ => log
  | left + 1, offset, sum, pages =>
    let number := numberAt bytes offset 4
    let content := offset + frameHeaderSize
    let sum := (sum.add bigEndian bytes 1 offset).add bigEndian bytes (log.pageSize / 8) content
    if numberAt bytes (offset + 8) 8 ≠ numberAt bytes 16 8 || number = 0 ||
        sum ≠ checksumAt bytes (offset + 16) then log
    else
      let pages := (number, content) :: pages
      let pageCount := numberAt bytes (offset + 4) 4
      let log := if pageCount = 0 then log else { log with pages, pageCount }
      follow bigEndian bytes log left (content + log.pageSize) sum pages

/-- The log in some bytes. One that is not recognised holds nothing; one of another version
does not open. -/
def ofBytes (bytes : ByteArray) : Except Fault (Option Log) :=
  let magic := numberAt bytes 0 4
  let bigEndian := magic % 2 = 1
  let pageSize := numberAt bytes 8 4
  let sum := Checksum.add bigEndian bytes ⟨0, 0⟩ 3 0
  if bytes.size ≤ headerSize || magic / 2 ≠ signature / 2 || !pageSize.isPowerOfTwo ||
      65536 < pageSize || pageSize < 512 || sum ≠ checksumAt bytes 24 then .ok none
  else if numberAt bytes 4 4 ≠ version then .error (.cannotOpen none)
  else
    let frames := (bytes.size - headerSize) / (frameHeaderSize + pageSize)
    let log := follow bigEndian bytes ⟨bytes, pageSize, [], 0⟩ frames headerSize sum []
    .ok (if log.pages.isEmpty then none else some log)

/-- The content of a page, if the log has it. -/
def page? (log : Log) (number : Nat) : Option ByteArray :=
  (log.pages.lookup number).map fun offset ↦ log.bytes.extract offset (offset + log.pageSize)

end Log

end TreeAudit.Database
