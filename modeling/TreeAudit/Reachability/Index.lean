import TreeAudit.Reachability.Shard

/-!
The reachability index: parent edges arrive in any order, and after each one
the index knows which ids hang off the root. An edge whose parent is reachable
starts a cascade through everything parked below its child; the cascade keeps
its own stack of children still to be resolved, so a chain parked in reverse
order needs no deep recursion. Each resolved child leaves the index with one
parked edge less or the stack with one entry less, so every cascade ends.
-/

set_option autoImplicit false
set_option relaxedAutoImplicit false

namespace TreeAudit.Reachability

/-- A cascade under way: the children whose parent is known to be reachable,
the next one first, and the maps as they stand. -/
structure Cascade where
  work : List Child
  shard : Shard

namespace Cascade

/-- Resolves the next child; none when all are resolved. -/
def step (cascade : Cascade) : Option Cascade :=
  match cascade.work with
  | [] => none
  | child :: rest =>
    let (children, shard) := cascade.shard.resolve child
    some ⟨children ++ rest, shard⟩

/-- The edges parked or waiting for their turn. -/
def outstanding (cascade : Cascade) : Nat :=
  cascade.work.length + cascade.shard.parked

theorem outstanding_step {cascade next : Cascade} (h : cascade.step = some next) :
    next.outstanding + 1 = cascade.outstanding := by
  obtain ⟨work, shard⟩ := cascade
  cases work with
  | nil => simp [step] at h
  | cons child rest =>
    have hparked := shard.parked_resolve child
    simp only [step, Option.some.injEq] at h
    subst h
    simp only [outstanding, List.length_append, List.length_cons]
    omega

/-- Runs the cascade to its end. -/
def settle (cascade : Cascade) : Shard :=
  match _h : cascade with
  | ⟨[], shard⟩ => shard
  | ⟨child :: rest, shard⟩ =>
    match _hresolve : shard.resolve child with
    | (children, shard) => settle ⟨children ++ rest, shard⟩
termination_by cascade.outstanding
decreasing_by
  have := @outstanding_step cascade ⟨children ++ rest, shard⟩
    (by simp [_h, step, _hresolve])
  subst _h
  omega

theorem settle_of_step_eq_some {cascade next : Cascade} (h : cascade.step = some next) :
    cascade.settle = next.settle := by
  obtain ⟨work, shard⟩ := cascade
  cases work with
  | nil => simp [step] at h
  | cons child rest =>
    rw [settle]
    simp only [step, Option.some.injEq] at h
    simp [← h]

theorem settle_of_step_eq_none {cascade : Cascade} (h : cascade.step = none) :
    cascade.settle = cascade.shard := by
  obtain ⟨work, shard⟩ := cascade
  cases work with
  | nil => rw [settle]
  | cons child rest => simp [step] at h

end Cascade

/-- An edge left without a reachable parent. -/
structure Unresolved where
  id : DocumentId
  parent : DocumentId
deriving DecidableEq

/-- Ordered by id and then by parent. -/
def Unresolved.le (a b : Unresolved) : Bool :=
  if a.id.text = b.id.text then a.parent.text ≤ b.parent.text else a.id.text ≤ b.id.text

/-- What is parked, as a report lists it. -/
def Shard.unresolved (shard : Shard) : List Unresolved :=
  shard.parkedEdges.map fun (child, parent) ↦ ⟨child.id, parent⟩

structure Index where
  shard : Shard

namespace Index

def ofRoot (root : DocumentId) : Index :=
  ⟨Shard.empty.mark root⟩

def insert (edge : Edge) (index : Index) : Index :=
  let (work, shard) := index.shard.arrive edge
  ⟨Cascade.settle ⟨work, shard⟩⟩

def isReachable (index : Index) (id : DocumentId) : Bool :=
  id ∈ index.shard.reachable

/-- How many ids are held in the reachable set, the root included. -/
def kept (index : Index) : Nat := index.shard.reachable.size

def pending (index : Index) : Nat := index.shard.parked

/-- Empties the index and lists what was parked, in order. -/
def drain (index : Index) : List Unresolved × Index :=
  (index.shard.unresolved.mergeSort Unresolved.le, ⟨Shard.empty⟩)

end Index

end TreeAudit.Reachability
