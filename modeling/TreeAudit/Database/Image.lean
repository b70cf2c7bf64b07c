import TreeAudit.Database.Encoding
import TreeAudit.Database.Log

/-!
The image of a database: a file of pages of one size, numbered from one, with a log that may
have newer contents for some. The first page opens with a header. Bytes behind the end of
the file count as zeros up to the end of the page.
-/

set_option autoImplicit false
set_option relaxedAutoImplicit false

namespace TreeAudit.Database

open Bytes

structure Image where
  file : ByteArray
  log? : Option Log
  pageSize : Nat
  /-- How much of a page holds data. -/
  usable : Nat
  pageCount : Nat

/-- The bytes every file of a database begins with. -/
def signature : List UInt8 := "SQLite format 3\x00".toUTF8.toList

/-- Bytes cut or filled up with zeros to a size. -/
def fitted (bytes : ByteArray) (size : Nat) : ByteArray :=
  if bytes.size < size then
    bytes ++ ⟨Array.replicate (size - bytes.size) 0⟩
  else bytes.extract 0 size

namespace Image

/-- The content of a page. -/
def content (image : Image) (number : Nat) : ByteArray :=
  let stored := match image.log?.bind fun log ↦ log.page? number with
    | some bytes => bytes
    | none => image.file.extract ((number - 1) * image.pageSize) (number * image.pageSize)
  fitted stored image.pageSize

/-- Whether a number of bytes from the start of a page stand in the file. -/
def isInFile (image : Image) (number size : Nat) : Bool :=
  (number - 1) * image.pageSize + size ≤ image.file.size

def isInLog (image : Image) (number : Nat) : Bool :=
  (image.log?.bind fun log ↦ log.page? number).isSome

/-- The page size that a header tells, if it can be one. -/
def pageSize? (header : ByteArray) : Option Nat :=
  let size := 0x100 * byteAt header 16 + 0x10000 * byteAt header 17
  if size.isPowerOfTwo && 512 ≤ size && size ≤ 65536 then some size else none

/-- The size of pages that is assumed where none is told. -/
def usualPageSize : Nat := 4096

/-- How many pages a size in bytes takes. -/
def pagesIn (size pageSize : Nat) : Nat := (size + pageSize - 1) / pageSize

/-- The number of pages that a header tells, if it was written with the last change. -/
def toldPageCount (header : ByteArray) : Nat :=
  if numberAt header 24 4 = numberAt header 92 4 then numberAt header 28 4 else 0

/-- The image of a database without any page. -/
def empty : Image := ⟨.empty, none, usualPageSize, usualPageSize, 0⟩

/-- The image in a file with its log. A file of one byte counts as empty. -/
def ofFile (file : ByteArray) (log? : Option Log) : Except Fault Image := do
  let assumed := (pageSize? file).getD usualPageSize
  let image : Image := ⟨file, log?, assumed, assumed, 0⟩
  let header := image.content 1
  let size := if file.size = 1 then 0 else file.size
  let pagesFound (pageSize : Nat) : Nat := (log?.map Log.pageCount).getD (pagesIn size pageSize)
  let told := toldPageCount header
  if pagesFound assumed = 0 && told = 0 then return empty
  if (header.extract 0 16).toList ≠ signature || 2 < byteAt header 19 ||
      numberAt header 21 3 ≠ 0x402020 then throw .notADatabase
  match pageSize? header with
  | none => throw .notADatabase
  | some pageSize =>
    if pagesFound pageSize < told then throw .malformed
    let usable := pageSize - byteAt header 20
    if usable < 480 then throw .notADatabase
    return ⟨file, log?, pageSize, usable, if told = 0 then pagesFound pageSize else told⟩

/-- The number in four bytes of the header from an offset. -/
def headerNumber (image : Image) (offset : Nat) : Nat := numberAt (image.content 1) offset 4

/-- Whether the header says that changes go into a log. -/
def isLogged (image : Image) : Bool := byteAt (image.content 1) 19 = 2

end Image

end TreeAudit.Database
