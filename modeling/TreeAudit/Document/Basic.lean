import TreeAudit.Document.Id

/-!
Documents as a store scan delivers them: an id, the parent it refers to, its
structural kind and whether it may have children.
-/

set_option autoImplicit false
set_option relaxedAutoImplicit false

namespace TreeAudit

namespace Document

/-- A live tree node, a tombstone, or a revisions document split off a node. -/
inductive Kind where
  | node
  | deleted
  | split
deriving DecidableEq

namespace Kind

def label : Kind → String
  | node => "node"
  | deleted => "deleted"
  | split => "split"

/-- All kinds in the order reports list them. -/
def all : List Kind := [node, deleted, split]

end Kind

end Document

structure Document where
  id : DocumentId
  parent : Option DocumentId
  kind : Document.Kind
  hasChildren : Bool
deriving DecidableEq

namespace Document

/-- A live node whose parent is the one its id tells. -/
def ofId (id : DocumentId) : Document where
  id := id
  parent := id.derivedParent?
  kind := .node
  hasChildren := true

end Document

end TreeAudit
