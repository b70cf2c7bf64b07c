import TreeAudit.Document.Path
import TreeAudit.Text.Unsigned

/-!
Document ids. An id is an arbitrary text, compared and ordered by code point,
which is the order of its bytes. An id of the form depth, colon, path names the
node at that path and thereby the id of its parent; earlier revisions split off
a node carry `p/` after the colon; long paths are stored under other ids, from
which nothing can be derived.
-/

set_option autoImplicit false
set_option relaxedAutoImplicit false

namespace TreeAudit

structure DocumentId where
  text : String
deriving DecidableEq, Hashable

namespace DocumentId

open Text.Split

def ofChars (text : List Char) : DocumentId := ⟨String.ofList text⟩

/-- The id under which the node at `path` is stored. -/
def ofPath (path : List Char) : DocumentId :=
  ⟨toString (Document.Path.depth path) ++ ":" ++ String.ofList path⟩

/-- The path a plain path id carries. The depth in front of the colon has to be
a machine word but need not agree with the path. -/
def path? (id : DocumentId) : Option (List Char) :=
  match atFirst? ':' id.text.toList with
  | some (depth, path) =>
    if (Text.Unsigned.unsigned? depth).isSome && path.head? = some '/' then some path else none
  | none => none

/-- The id of the parent, where the id alone tells it. -/
def derivedParent? (id : DocumentId) : Option DocumentId :=
  (id.path?.bind Document.Path.parent?).map ofPath

/-- Whether the id is that of a revisions document split off a node. -/
def isSplit (id : DocumentId) : Bool :=
  match atFirst? ':' id.text.toList with
  | some (_, 'p' :: '/' :: _) => true
  | _ => false

/-- The ids met by going to the derived parent again and again, at most `steps`
of them. -/
def ancestorsWithin (steps : Nat) (id : DocumentId) : List DocumentId :=
  match steps with
  | 0 => []
  | steps + 1 =>
    match id.derivedParent? with
    | some parent => parent :: ancestorsWithin steps parent
    | none => []

/-- The chain of derived parents. Each step cuts at least one character off the
path, so the chain has no more ids than the text has characters. -/
def ancestors (id : DocumentId) : List DocumentId :=
  ancestorsWithin id.text.length id

/-- The id of the tree root when none is configured. -/
def treeRoot : DocumentId := ⟨"0:/"⟩

end DocumentId

end TreeAudit
