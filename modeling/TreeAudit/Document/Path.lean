import TreeAudit.Text.Split

/-!
Paths of tree nodes, as texts whose segments are separated by slashes. Depth
counts the segments that are not empty. The parent of a path is found by
dropping one trailing slash and cutting at the last slash that remains, so
doubled slashes keep their place in the parent.
-/

set_option autoImplicit false
set_option relaxedAutoImplicit false

namespace TreeAudit.Document.Path

open Text.Split

def rootPath : List Char := ['/']

def depth (path : List Char) : Nat :=
  ((pieces '/' path).filter fun segment ↦ !segment.isEmpty).length

/-- The path one segment up; none for the root and for a path without a slash
to cut at. Cutting at a leading slash leaves the root. -/
def parent? (path : List Char) : Option (List Char) :=
  if path = rootPath then none
  else
    match beforeLast? '/' (dropTrailing '/' path) with
    | none => none
    | some [] => some rootPath
    | some parent => some parent

/-- The path whose segments are given, from the root down. -/
def ofSegments (segments : List (List Char)) : List Char :=
  match segments with
  | [] => rootPath
  | _ => segments.flatMap fun segment ↦ '/' :: segment

end TreeAudit.Document.Path
