import TreeAudit.Database.Name
import TreeAudit.FileSystem
import TreeAudit.Numeric.Natural

/-!
Where the file of a database is, and the files that belong to it. A path is made a full one
by its names alone: one that leads up takes away the name before it, whether that is there or
not. A path is refused for its length, or if it leads through a file.
-/

set_option autoImplicit false
set_option relaxedAutoImplicit false

namespace TreeAudit.Store.Location

open FileSystem (Place)

/-- How long a full path may be, with room for what is put behind the names of other files. -/
def longestPath : Nat := 504

/-- How long a path may be with its next name and two signs more. -/
def longestStep : Nat := 512

/-- How long a path is that is written out. -/
def lengthOf (place : Place) : Nat :=
  Numeric.total (place.map fun name ↦ name.utf8ByteSize + 1)

/-- Whether a name can be looked up at a place. -/
def isPassable (files : FileSystem) (place : Place) (name : String) : Bool :=
  match files.obstacle? place with
  | none => name.utf8ByteSize ≤ FileSystem.longestName
  | some .notFound => true
  | some _ => false

/-- Goes on from a place by the names of a path. -/
def full? (files : FileSystem) (place : Place) : List String → Option Place
  | [] => some place
  | name :: rest =>
    if name = ".." then full? files place.dropLast rest
    else if longestStep < max 1 (lengthOf place) + name.utf8ByteSize + 2 then none
    else if isPassable files place name then full? files (place ++ [name]) rest
    else none

/-- The place of a database. -/
def place? (files : FileSystem) (path : String) : Option Place := do
  let place ← full? files [] (files.start path)
  let place ← full? files place (Text.PathName.steps path)
  if place = [] || longestPath < lengthOf place then none else some place

/-- The place of a file that belongs to the database at a place. -/
def companion (place : Place) (ending : String) : Place :=
  place.dropLast ++ [place.getLast?.getD "" ++ ending]

/-- The file with what a change may have to be taken back by. -/
def journal (place : Place) : Place := companion place "-journal"

/-- The file with newer pages. -/
def log (place : Place) : Place := companion place "-wal"

end TreeAudit.Store.Location
