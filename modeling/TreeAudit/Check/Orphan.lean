import TreeAudit.Check.Machine
import TreeAudit.Reachability.Crew

/-!
Orphans: live nodes whose parent cannot be reached from the root. Documents may
come in any order, so every live node is sent as an edge to its parent to the
workers that share a reachability index. At the end the workers are waited for,
and what is still parked then is reported, in order of id and parent. A parent
that is itself such a node is named as an unreachable ancestor, any other as
missing. Nodes without a parent reference are reported when they are met and
again at the end. Tombstones and revisions documents are no nodes and resolve
nothing.
-/

set_option autoImplicit false
set_option relaxedAutoImplicit false

namespace TreeAudit.Check

open Report Reachability

structure Orphan where
  root : DocumentId
  /-- Keep only ids whose document says that it may have children. -/
  trustFlags : Bool
  staff : Staff
  crew : Crew staff.size
  malformed : List DocumentId
  examined : Nat
  /-- How many ids the reachable set held at the end. -/
  retained : Nat
  finished : Bool

namespace Orphan

def checkName : String := "orphan"

def start (root : DocumentId) (trustFlags : Bool) (staff : Staff := {}) : Orphan where
  root := root
  trustFlags := trustFlags
  staff := staff
  crew := .ofRoot staff root
  malformed := []
  examined := 0
  retained := 0
  finished := false

def malformedFinding (id : DocumentId) : Finding where
  check := checkName
  severity := .error
  id := some id
  parent := none
  description := "malformed document: missing parent reference"

def unreachableAncestor (edge : Unresolved) : String :=
  "orphaned node: ancestor " ++ edge.parent.text ++ " is not reachable"

def missingParent (edge : Unresolved) : String :=
  "orphaned node: missing parent " ++ edge.parent.text

/-- The finding for an edge that was never resolved, given the nodes that are
orphans themselves. -/
def orphanFinding (orphans : Std.HashSet DocumentId) (edge : Unresolved) : Finding where
  check := checkName
  severity := .corruption
  id := some edge.id
  parent := some edge.parent
  description :=
    if edge.parent ∈ orphans then unreachableAncestor edge else missingParent edge

def parentlessFinding (id : DocumentId) : Finding where
  check := checkName
  severity := .corruption
  id := some id
  parent := none
  description := "orphaned node: no parent reference"

def statusLine (orphans examined : Nat) : String :=
  "orphan check orphans=" ++ toString orphans ++ " examined=" ++ toString examined

def edgeOf (orphan : Orphan) (document : Document) (parent : DocumentId) : Edge where
  id := document.id
  parent := parent
  retain := !orphan.trustFlags || document.hasChildren

/-- Sends an edge to the workers. -/
def send (edge : Edge) (orphan : Orphan) : Orphan :=
  { orphan with crew := orphan.crew.send orphan.staff edge }

def note (id : DocumentId) (orphan : Orphan) : Orphan :=
  { orphan with malformed := id :: orphan.malformed }

/-- The root needs no parent. -/
def process (document : Document) (orphan : Orphan) (outlet : Outlet) : Answer Orphan :=
  if document.kind ≠ .node then ⟨orphan, outlet, none⟩
  else
    let orphan := { orphan with examined := orphan.examined + 1 }
    if document.id = orphan.root then ⟨orphan, outlet, none⟩
    else
      match document.parent with
      | none =>
        .sending (orphan.note document.id) outlet [.finding (malformedFinding document.id)]
      | some parent =>
        if orphan.finished then
          ⟨orphan, outlet, some (.worker "orphan check already finalized")⟩
        else ⟨orphan.send (orphan.edgeOf document parent), outlet, none⟩

def byText (a b : DocumentId) : Bool := a.text ≤ b.text

/-- The nodes without a parent are forgotten once their report has begun. -/
def finish (orphan : Orphan) (outlet : Outlet) : Answer Orphan :=
  let crew := orphan.crew.join orphan.staff
  let (unresolved, index) := crew.index.drain
  let malformed := orphan.malformed.mergeSort byText
  let orphans := Std.HashSet.ofList (unresolved.map Unresolved.id ++ malformed)
  let closed := { orphan with
    crew := { crew with index := index }
    malformed := malformed
    retained := crew.index.kept
    finished := true }
  match outlet.sendAll (unresolved.map fun edge ↦ .finding (orphanFinding orphans edge)) with
  | (outlet, false) => ⟨closed, outlet, some .receiverGone⟩
  | (outlet, true) =>
    .sending { closed with malformed := [] } outlet
      ((malformed.map fun id ↦ .finding (parentlessFinding id)) ++
        [.status (statusLine (unresolved.length + malformed.length) orphan.examined)])

def machine : Machine Orphan where
  name := fun _ ↦ checkName
  process := fun _ document orphan outlet ↦ process document orphan outlet
  finish := fun _ orphan outlet ↦ finish orphan outlet

end Orphan

end TreeAudit.Check
