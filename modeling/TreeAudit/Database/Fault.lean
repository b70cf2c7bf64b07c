import TreeAudit.Text.Utf8

/-!
Failures of the database engine, each with its message, and for most the number and the
standing text that the engine has for their kind.
-/

set_option autoImplicit false
set_option relaxedAutoImplicit false

namespace TreeAudit.Database

/-- The kinds of values that a column can hold. -/
inductive Kind where
  | null
  | integer
  | real
  | text
  | blob
deriving DecidableEq

def Kind.label : Kind → String
  | null => "Null"
  | integer => "Integer"
  | real => "Real"
  | text => "Text"
  | blob => "Blob"

/-- A failed conversion of a column to a text. -/
inductive ColumnFault where
  | kind (found : Kind) (name : String)
  | encoding (cause : Text.Utf8.Fault)
deriving DecidableEq

inductive Fault where
  /-- With the name of a file, if it was the database itself that did not open. -/
  | cannotOpen (path : Option String)
  /-- A file that gives no bytes at all. -/
  | unreadable
  /-- A file that ends where bytes were expected. -/
  | cutShort
  | notADatabase
  | malformed
  | malformedSchema (object detail : String)
  | unsupportedFormat
  /-- A journal says that the database was left in the middle of a change. -/
  | interrupted
  /-- An option of the name asks for more access than is given. -/
  | accessRefused (mode : String)
  | noCollation (name : String)
  | tooBig
  /-- A statement or a name that the engine does not take. -/
  | rejected (reason : String)
  /-- A statement that the engine does not take, with the place where it goes wrong. -/
  | rejectedAt (reason statement : String) (offset : Nat)
  | column (index : Nat) (cause : ColumnFault)
deriving DecidableEq

namespace Fault

def message : Fault → String
  | cannotOpen none => "unable to open database file"
  | cannotOpen (some path) => "unable to open database file: " ++ path
  | unreadable | cutShort => "disk I/O error"
  | notADatabase => "file is not a database"
  | malformed => "database disk image is malformed"
  | malformedSchema object detail =>
    "malformed database schema (" ++ object ++ ")" ++
      (if detail.isEmpty then "" else " - " ++ detail)
  | unsupportedFormat => "unsupported file format"
  | interrupted => "attempt to write a readonly database"
  | accessRefused mode => "access mode not allowed: " ++ mode
  | noCollation name => "no such collation sequence: " ++ name
  | tooBig => "string or blob too big"
  | rejected reason => reason
  | rejectedAt reason statement offset =>
    reason ++ " in " ++ statement ++ " at offset " ++ toString offset
  | column index (.kind found name) =>
    "Invalid column type " ++ found.label ++ " at index: " ++ toString index ++ ", name: " ++ name
  | column index (.encoding cause) =>
    "Conversion error from type Text at index: " ++ toString index ++ ", " ++ cause.message

/-- The number of a failure among those of the engine, with the text it has for it. -/
def code? : Fault → Option (Nat × String)
  | cannotOpen _ => some (14, "Unable to open the database file")
  | unreadable => some (266, "Error reading from disk")
  | cutShort => some (522, "Unable to obtain number of requested bytes (file truncated?)")
  | notADatabase => some (26, "File opened that is not a database file")
  | malformed | malformedSchema .. => some (11, "The database disk image is malformed")
  | interrupted =>
    some (776, "Database has hot journal that must be rolled back (requires write access)")
  | accessRefused _ => some (3, "Access permission denied")
  | noCollation _ => some (257, "SQL error or missing database")
  | tooBig => some (18, "String or BLOB exceeds size limit")
  | unsupportedFormat | rejected _ | rejectedAt .. => some (1, "SQL error or missing database")
  | column .. => none

/-- What is behind a failure, if anything. -/
def cause? : Fault → Option String
  | column _ (.encoding cause) => some cause.message
  | column _ (.kind ..) => none
  | fault => fault.code?.map fun (number, text) ↦
    "Error code " ++ toString number ++ ": " ++ text

end Fault

end TreeAudit.Database
