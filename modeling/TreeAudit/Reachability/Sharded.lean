import TreeAudit.Reachability.Index

/-!
The index split over shards by a hash of the id, as several workers share it:
an id's shard holds whether it is reachable and the children parked under it.
Answers are sums and unions over the shards, and what is drained is sorted, so
neither the hash nor the number of shards shows.
-/

set_option autoImplicit false
set_option relaxedAutoImplicit false

namespace TreeAudit.Reachability

structure Sharded where
  hash : DocumentId → UInt64
  shards : Array Shard
  nonempty : 0 < shards.size

namespace Sharded

def slot (index : Sharded) (id : DocumentId) : Fin index.shards.size :=
  ⟨(index.hash id).toNat % index.shards.size, Nat.mod_lt _ index.nonempty⟩

def shardOf (index : Sharded) (id : DocumentId) : Shard :=
  index.shards[index.slot id]

def replace (index : Sharded) (id : DocumentId) (shard : Shard) : Sharded where
  hash := index.hash
  shards := index.shards.set (index.slot id) shard
  nonempty := by simpa using index.nonempty

/-- A shard and the array without it. Lifted out of the array, the shard can be updated in
place. -/
@[noinline]
def liftOut (shards : Array Shard) (slot : Fin shards.size) : Shard × Array Shard :=
  (shards[slot], shards.set slot Shard.empty)

theorem size_liftOut (shards : Array Shard) (slot : Fin shards.size) :
    (liftOut shards slot).2.size = shards.size := by
  simp [liftOut]

/-- Lets an operation work on the shard of `id`. -/
def visit (id : DocumentId) (operation : Shard → List Child × Shard) (index : Sharded) :
    List Child × Sharded :=
  match index with
  | ⟨hash, shards, nonempty⟩ =>
    let slot : Fin shards.size := ⟨(hash id).toNat % shards.size, Nat.mod_lt _ nonempty⟩
    match h : liftOut shards slot with
    | (shard, others) =>
      match operation shard with
      | (work, shard) =>
        (work,
          { hash := hash
            shards := others.setIfInBounds slot shard
            nonempty := by
              have := size_liftOut shards slot
              simp only [h] at this
              simpa [this] using nonempty })

theorem visit_eq (id : DocumentId) (operation : Shard → List Child × Shard) (index : Sharded) :
    index.visit id operation =
      ((operation (index.shardOf id)).1, index.replace id (operation (index.shardOf id)).2) := by
  have := index.nonempty
  simp [visit, liftOut, replace, shardOf, slot, Array.setIfInBounds, Nat.mod_lt _ this]

def ofRoot (hash : DocumentId → UInt64) (count : Nat) (root : DocumentId) : Sharded :=
  let index : Sharded :=
    { hash := hash
      shards := Array.replicate (max count 1) Shard.empty
      nonempty := by simp only [Array.size_replicate]; omega }
  index.replace root ((index.shardOf root).mark root)

/-- The edges parked in any shard. -/
def parkedEdges (index : Sharded) : List (Child × DocumentId) :=
  index.shards.toList.flatMap Shard.parkedEdges

def parked (index : Sharded) : Nat := index.parkedEdges.length

private theorem length_flatMap_set (shards : List Shard) (i : Nat) (h : i < shards.length)
    (shard : Shard) :
    ((shards.set i shard).flatMap Shard.parkedEdges).length + shards[i].parked =
      (shards.flatMap Shard.parkedEdges).length + shard.parked := by
  unfold Shard.parked
  induction shards generalizing i with
  | nil => simp at h
  | cons first rest ih =>
    cases i with
    | zero =>
      simp only [List.set_cons_zero, List.flatMap_cons, List.length_append,
        List.getElem_cons_zero]
      omega
    | succ i =>
      have := ih i (by simpa using h)
      simp only [List.set_cons_succ, List.flatMap_cons, List.length_append,
        List.getElem_cons_succ]
      omega

theorem parked_replace (index : Sharded) (id : DocumentId) (shard : Shard) :
    (index.replace id shard).parked + (index.shardOf id).parked = index.parked + shard.parked := by
  have h := length_flatMap_set index.shards.toList (index.slot id).val (by simp) shard
  simpa [parked, parkedEdges, replace, shardOf] using h

/-- What an operation does to the parked edges of one shard it does to those of all. -/
theorem parked_visit (id : DocumentId) (operation : Shard → List Child × Shard)
    (index : Sharded) :
    (index.visit id operation).2.parked + (index.shardOf id).parked =
      index.parked + (operation (index.shardOf id)).2.parked := by
  rw [visit_eq]
  exact index.parked_replace id _

/-- An arriving edge is handed back or parked. -/
theorem parked_visit_arrive (edge : Edge) (index : Sharded) :
    (index.visit edge.parent fun shard ↦ shard.arrive edge).1.length +
      (index.visit edge.parent fun shard ↦ shard.arrive edge).2.parked = index.parked + 1 := by
  have hvisit := index.parked_visit edge.parent fun shard ↦ shard.arrive edge
  have harrive := (index.shardOf edge.parent).parked_arrive edge
  simp only [visit_eq] at hvisit ⊢
  omega

/-- The edges handed out are no longer parked. -/
theorem parked_visit_resolve (child : Child) (index : Sharded) :
    (index.visit child.id fun shard ↦ shard.resolve child).1.length +
      (index.visit child.id fun shard ↦ shard.resolve child).2.parked = index.parked := by
  have hvisit := index.parked_visit child.id fun shard ↦ shard.resolve child
  have hresolve := (index.shardOf child.id).parked_resolve child
  simp only [visit_eq] at hvisit ⊢
  omega

/-- Resolves every child of the work list and all that is parked below. -/
def settle (work : List Child) (index : Sharded) : Sharded :=
  match work with
  | [] => index
  | child :: rest =>
    let visited := index.visit child.id fun shard ↦ shard.resolve child
    settle (visited.1 ++ rest) visited.2
termination_by work.length + index.parked
decreasing_by
  have hparked := index.parked_visit_resolve child
  simp only [List.length_append, List.length_cons]
  omega

def insert (edge : Edge) (index : Sharded) : Sharded :=
  let (work, index) := index.visit edge.parent fun shard ↦ shard.arrive edge
  settle work index

def isReachable (index : Sharded) (id : DocumentId) : Bool :=
  id ∈ (index.shardOf id).reachable

/-- The ids held as reachable, over all shards. -/
def held (index : Sharded) : List DocumentId :=
  index.shards.toList.flatMap fun shard ↦ shard.reachable.toList

def kept (index : Sharded) : Nat := index.held.length

def pending (index : Sharded) : Nat := index.parked

def drain (index : Sharded) : List Unresolved × Sharded :=
  let drained : Sharded :=
    { hash := index.hash
      shards := Array.replicate index.shards.size Shard.empty
      nonempty := by simpa using index.nonempty }
  ((index.shards.toList.flatMap Shard.unresolved).mergeSort Unresolved.le, drained)

end Sharded

end TreeAudit.Reachability
