import TreeAudit.Database.Fault
import TreeAudit.Store.Payload

/-!
Document stores as a check run sees them: a name, a rough count that may be
known, and one forward scan, which may fail to start or at any of its items.
-/

set_option autoImplicit false
set_option relaxedAutoImplicit false

namespace TreeAudit

namespace Store

/-- Failures of the file system. -/
inductive FileError where
  | notFound
  | permissionDenied
  | notADirectory
  | isADirectory
  | nameTooLong
  | nulInName
  | invalidText
deriving DecidableEq

def FileError.message : FileError → String
  | notFound => "No such file or directory (os error 2)"
  | permissionDenied => "Permission denied (os error 13)"
  | notADirectory => "Not a directory (os error 20)"
  | isADirectory => "Is a directory (os error 21)"
  | nameTooLong => "File name too long (os error 36)"
  | nulInName => "file name contained an unexpected NUL byte"
  | invalidText => "stream did not contain valid UTF-8"

/-- Contents that are not as a store keeps them. -/
inductive ProtocolError where
  | notADump (path : String)
  | noTable (table path : String)
  | line (number : Nat) (cause : PayloadError)
  | row (id : DocumentId) (cause : PayloadError)
  | reported (reason : String)
deriving DecidableEq

def ProtocolError.message : ProtocolError → String
  | notADump path => "not a document dump: " ++ path
  | noTable table path => "no " ++ table ++ " table in " ++ path
  | line number cause => "line " ++ toString number ++ ": " ++ cause.message
  | row id cause => "row " ++ id.text ++ ": " ++ cause.message
  | reported reason => reason

inductive Error where
  | file (cause : FileError)
  | database (cause : Database.Fault)
  | protocol (cause : ProtocolError)
deriving DecidableEq

namespace Error

def message : Error → String
  | file cause => "io error: " ++ cause.message
  | database cause => "sqlite error: " ++ cause.message
  | protocol cause => "protocol error: " ++ cause.message

/-- The causes behind an error, from the nearest to the first. -/
def causes : Error → List String
  | file cause => [cause.message]
  | database cause => cause.message :: cause.cause?.toList
  | protocol _ => []

/-- The error with everything that led to it. -/
def fullMessage (error : Error) : String :=
  ": ".intercalate (error.message :: error.causes)

end Error

abbrev Item := Except Error Document

end Store

/-- A store that can be scanned. -/
structure Store where
  name : String
  estimate : Option Nat
  scan : Except Store.Error (List Store.Item)

namespace Store

/-- A store holding documents in memory, in the order of its scan. -/
def ofDocuments (documents : List Document) (estimate : Option Nat) : Store where
  name := "memory"
  estimate := estimate
  scan := .ok (documents.map .ok)

end Store

end TreeAudit
