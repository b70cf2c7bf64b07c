import TreeAudit.Store.Contents
import TreeAudit.Store.Dump
import TreeAudit.Store.Location

/-!
Opening a store by the path of its file. What is opened is not read yet: the scan
reads the file as it is then.
-/

set_option autoImplicit false
set_option relaxedAutoImplicit false

namespace TreeAudit.Store

/-- The kinds of stores that files can hold. -/
inductive Backend where
  | dump
  | database
deriving DecidableEq

namespace Backend

def label : Backend → String
  | dump => "jsonl"
  | database => "sqlite"

def all : List Backend := [dump, database]

end Backend

/-- An open store, to be scanned in a file system of that time. -/
abbrev Opened := FileSystem → Store

/-- A database is no text. -/
def scanDump (path : String) : Opened := fun files ↦
  match files.read path with
  | .ok (.bytes bytes) => Dump.store (.ok bytes)
  | .ok (.tables _) => { Dump.store (.ok []) with scan := .ok [.error (.file .invalidText)] }
  | .error error => Dump.store (.error error)

def openDump (files : FileSystem) (path : String) : Except Error Opened :=
  match files.find path with
  | .ok (_, .file _) => .ok (scanDump path)
  | .ok _ => .error (.protocol (.notADump path))
  | .error error => .error (.file error)

open Database (Fault Image Log Name)

/-- Whether the journal of a database tells of a change that was not finished. -/
def isInterrupted (files : FileSystem) (place : FileSystem.Place) : Except Fault Bool :=
  match files.node? (Location.journal place) with
  | some (.directory _) => .error .unreadable
  | some (.file content) => .ok ((content.head.head?.map fun byte ↦ byte != 0).getD false)
  | _ => .ok false

/-- The log of a database, if there is one with anything in it. -/
def logOf (files : FileSystem) (name : Name) (place : FileSystem.Place) :
    Except Fault (Option Log) :=
  match files.node? (Location.log place) with
  | some (.file content) =>
    if content.head.isEmpty then .ok none
    else if !name.admitsLog then .error (.cannotOpen none)
    else Log.ofBytes ⟨content.head.toArray⟩
  | some _ => .error (.cannotOpen none)
  | none => .ok none

/-- The database in some bytes. -/
def readImage (name : Name) (log? : Option Log) (bytes : List UInt8) : Contents.Reading := do
  let image ← Image.ofFile ⟨bytes.toArray⟩ log?
  if !name.isImmutable && !name.admitsLog && Image.isLogged image then
    throw (.cannotOpen none)
  return .image (← Database.Catalog.ofImage image)

/-- Reads the file of a database at a place. One of less than two bytes is empty. -/
def readDatabase (files : FileSystem) (name : Name) (place : FileSystem.Place)
    (content : FileSystem.Content) : Contents.Reading := do
  let isEmpty := match content with
    | .bytes bytes => decide (bytes.length < 2)
    | .tables _ => false
  if isEmpty then return .empty
  if !name.isImmutable && (← isInterrupted files place) then throw .interrupted
  let log? ← if name.isImmutable then pure none else logOf files name place
  match content with
  | .tables tables => return .tables tables
  | .bytes bytes => readImage name log? bytes

/-- Opens the database with a name. A directory opens, but cannot be read. -/
def connect (files : FileSystem) (text : String) : Except Fault Contents.Reading := do
  let name ← Name.read text
  match name.path? with
  | none => return .ok .empty
  | some path =>
    match Location.place? files path with
    | none => throw (.cannotOpen (some text))
    | some place =>
      match files.node? place with
      | some (.file content) => return readDatabase files name place content
      | some (.device _) => return .ok .empty
      | some (.directory _) => return .error .unreadable
      | none => throw (.cannotOpen (some text))

def scanDatabase (path : String) (batch : Nat) : Opened := fun files ↦
  Contents.store (connect files path) batch

def openDatabase (files : FileSystem) (path : String) (batch : Nat) : Except Error Opened :=
  match connect files path with
  | .error fault => .error (.database fault)
  | .ok (.error fault) => .error (.database fault)
  | .ok (.ok contents) =>
    match contents.hasNodes with
    | .error fault => .error (.database fault)
    | .ok true => .ok (scanDatabase path batch)
    | .ok false => .error (.protocol (.noTable Paging.nodes path))

/-- Opens a store; a database is to be read in pages of `batch` rows. -/
def openPath (files : FileSystem) (backend : Backend) (path : String) (batch : Nat) :
    Except Error Opened :=
  match backend with
  | .dump => openDump files path
  | .database => openDatabase files path batch

end TreeAudit.Store
