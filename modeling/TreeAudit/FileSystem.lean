import TreeAudit.Database.Image
import TreeAudit.Store.Table
import TreeAudit.Text.PathName

/-!
A file system as far as a run can tell: directories, files and two devices, found
by paths from the top or from the working directory. A file that is a database is
kept as its tables.

Symbolic and hard links are left out. Every file has one name only: two paths lead to
the same file just if they lead to the same place, and `..` in a path leads to the
directory above in the path itself. With links a file has further names, and what is
written under one of them is seen under all.
-/

set_option autoImplicit false
set_option relaxedAutoImplicit false

namespace TreeAudit

open Store (FileError Tables)

namespace FileSystem

inductive Content where
  | bytes (bytes : List UInt8)
  | tables (tables : Tables)

inductive Node where
  | directory (writable : Bool)
  | file (content : Content)
  /-- A device that takes what is written to it, if it has room. -/
  | device (hasRoom : Bool)

/-- The bytes of a file, as far as they are known: of a database only those at the
start. -/
def Content.head : Content → List UInt8
  | .bytes known => known
  | .tables _ => Database.signature

/-- A place in the tree: the names from the top. -/
abbrev Place := List String

def longestName : Nat := 255

def longestPath : Nat := 4095

end FileSystem

/-- The first node listed at a place is the one that counts. None of them is a link. -/
structure FileSystem where
  nodes : List (FileSystem.Place × FileSystem.Node)
  workingDirectory : FileSystem.Place

namespace FileSystem

/-- The node at a place. The top is always a directory. -/
def node? (files : FileSystem) (place : Place) : Option Node :=
  match files.nodes.find? fun entry ↦ entry.1 = place with
  | some (_, node) => some node
  | none => if place = [] then some (.directory true) else none

def put (files : FileSystem) (place : Place) (node : Node) : FileSystem :=
  { files with nodes := (place, node) :: files.nodes.filter fun entry ↦ entry.1 ≠ place }

def remove (files : FileSystem) (place : Place) : FileSystem :=
  { files with nodes := files.nodes.filter fun entry ↦ entry.1 ≠ place }

/-- What is in the way of following a path through a place. -/
def obstacle? (files : FileSystem) (place : Place) : Option FileError :=
  match files.node? place with
  | some (.directory _) => none
  | some _ => some .notADirectory
  | none => some .notFound

/-- Follows names from a place, which has to be a directory for the next name. -/
def follow (files : FileSystem) (place : Place) : List String → Except FileError Place
  | [] => .ok place
  | name :: rest =>
    match files.obstacle? place with
    | some error => .error error
    | none =>
      if name = ".." then follow files place.dropLast rest
      else if longestName < name.utf8ByteSize then .error .nameTooLong
      else follow files (place ++ [name]) rest

def start (files : FileSystem) (path : String) : Place :=
  if Text.PathName.isAbsolute path then [] else files.workingDirectory

/-- Paths that name nothing, whatever there is. -/
def unusable? (path : String) : Option FileError :=
  if path.contains '\x00' then some .nulInName
  else if path = "" then some .notFound
  else if longestPath < path.utf8ByteSize then some .nameTooLong
  else none

/-- Whether the last name of a path says that it is a directory. -/
def asksDirectory (path : String) : Bool :=
  match (Text.PathName.names path).getLast? with
  | some name => Text.PathName.isIdle name || name = ".."
  | none => false

/-- The node a path names, and its place. -/
def find (files : FileSystem) (path : String) : Except FileError (Place × Node) := do
  match unusable? path with
  | some error => .error error
  | none =>
    let place ← files.follow (files.start path) (Text.PathName.steps path)
    match files.node? place with
    | none => .error .notFound
    | some (.directory writable) => .ok (place, .directory writable)
    | some node => if asksDirectory path then .error .notADirectory else .ok (place, node)

def isDirectory (files : FileSystem) (path : String) : Bool :=
  match files.find path with
  | .ok (_, .directory _) => true
  | _ => false

/-- What a path can be read for. Nothing comes from a device. -/
def read (files : FileSystem) (path : String) : Except FileError Content := do
  match ← files.find path with
  | (_, .file content) => .ok content
  | (_, .device _) => .ok (.bytes [])
  | (_, .directory _) => .error .isADirectory

/-- Whether a path ends in a dot, slashes aside, so that all its steps lead through
directories. -/
def endsInDot (path : String) : Bool :=
  ((Text.PathName.names path).filter fun name ↦ name ≠ "").getLast? = some "."

/-- Makes an empty file where a path says, or empties the one that is there, and
returns its place. A path that asks for a directory cannot name a file. -/
def create (files : FileSystem) (path : String) : Except FileError (FileSystem × Place) := do
  match unusable? path with
  | some error => .error error
  | none =>
    let steps := Text.PathName.steps path
    let directory ← files.follow (files.start path)
      (if endsInDot path then steps else steps.dropLast)
    match files.obstacle? directory with
    | some error => .error error
    | none =>
      if asksDirectory path then .error .isADirectory
      else
        let place ← files.follow directory (steps.drop (steps.length - 1))
        match files.node? place with
        | some (.directory _) => .error .isADirectory
        | some (.device _) => .ok (files, place)
        | some (.file _) => .ok (files.put place (.file (.bytes [])), place)
        | none =>
          match files.node? directory with
          | some (.directory false) => .error .permissionDenied
          | _ => .ok (files.put place (.file (.bytes [])), place)

/-- Whether the node at a place takes what is written to it. -/
def hasRoom (files : FileSystem) (place : Place) : Bool :=
  match files.node? place with
  | some (.device hasRoom) => hasRoom
  | _ => true

/-- Stores bytes in the file at a place; a device keeps nothing. -/
def write (files : FileSystem) (place : Place) (bytes : List UInt8) : FileSystem :=
  match files.node? place with
  | some (.file _) => files.put place (.file (.bytes bytes))
  | _ => files

end FileSystem

end TreeAudit
