import TreeAudit.Document.Id
import Std.Data.HashMap
import Std.Data.HashSet

/-!
The two maps behind incremental reachability: ids known to hang off the root,
and children waiting under a parent not yet known to. Both are keyed by the id
asked about, so each of the two atomic operations looks at one key only: an
arriving edge asks for its parent, and a node that has become reachable takes
the children parked under it. An edge is parked exactly once, and taking the
children of a node removes as many parked edges as it hands out.
-/

set_option autoImplicit false
set_option relaxedAutoImplicit false

namespace TreeAudit.Reachability

/-- A node with the parent it claims. Only nodes marked `retain` are sure to be
kept in the reachable set. -/
structure Edge where
  id : DocumentId
  parent : DocumentId
  retain : Bool
deriving DecidableEq

/-- The child end of an edge, parked under its parent or about to be resolved. -/
structure Child where
  id : DocumentId
  retain : Bool
deriving DecidableEq

def Edge.child (edge : Edge) : Child := ⟨edge.id, edge.retain⟩

structure Shard where
  reachable : Std.HashSet DocumentId
  /-- The children parked under each parent, latest first. -/
  pending : Std.HashMap DocumentId (List Child)

namespace Shard

def empty : Shard := ⟨∅, ∅⟩

def mark (id : DocumentId) (shard : Shard) : Shard :=
  { shard with reachable := shard.reachable.insert id }

/-- The children parked under `id`. -/
def waiting (shard : Shard) (id : DocumentId) : List Child :=
  shard.pending.getD id []

def park (edge : Edge) (shard : Shard) : Shard :=
  { shard with
    pending := shard.pending.insert edge.parent (edge.child :: shard.waiting edge.parent) }

/-- Decides an arriving edge: the child is handed back if its parent is
reachable, and is parked under the parent otherwise. -/
def arrive (edge : Edge) (shard : Shard) : List Child × Shard :=
  if edge.parent ∈ shard.reachable then ([edge.child], shard) else ([], shard.park edge)

/-- Resolves a child whose parent is reachable: the children parked under it
are handed out, and it is kept if it asks to be or if it had any. -/
def resolve (child : Child) (shard : Shard) : List Child × Shard :=
  match shard.pending[child.id]? with
  | some children =>
    (children, ⟨shard.reachable.insert child.id, shard.pending.erase child.id⟩)
  | none => ([], if child.retain then shard.mark child.id else shard)

/-- The parked edges, as child and parent. -/
def parkedEdges (shard : Shard) : List (Child × DocumentId) :=
  shard.pending.toList.flatMap fun entry ↦ entry.2.map fun child ↦ (child, entry.1)

/-- How many edges are parked. -/
def parked (shard : Shard) : Nat := shard.parkedEdges.length

private theorem filter_toList_erase (m : Std.HashMap DocumentId (List Child)) (id : DocumentId) :
    ((m.erase id).toList.filter fun entry ↦ !(id == entry.1)) = (m.erase id).toList := by
  rw [List.filter_eq_self]
  rintro ⟨key, children⟩ h
  rw [Std.HashMap.mem_toList_iff_getElem?_eq_some, Std.HashMap.getElem?_erase] at h
  by_cases hk : (id == key) = true
  · simp [hk] at h
  · simp [hk]

theorem toList_perm_cons_erase {m : Std.HashMap DocumentId (List Child)} {id : DocumentId}
    {children : List Child} (h : m[id]? = some children) :
    m.toList.Perm ((id, children) :: (m.erase id).toList) := by
  have hm : m.Equiv ((m.erase id).insert id children) := by
    apply Std.HashMap.Equiv.of_forall_getElem?_eq
    intro key
    rw [Std.HashMap.getElem?_insert, Std.HashMap.getElem?_erase]
    by_cases hk : (id == key) = true
    · simp only [hk, if_true]
      rw [← beq_iff_eq.mp hk, h]
    · simp [hk]
  refine hm.toList_perm.trans (Std.HashMap.toList_insert_perm.trans ?_)
  simp only [decide_not, Bool.decide_eq_true, filter_toList_erase]
  exact List.Perm.refl _

/-- The edges parked under an id, and those parked elsewhere. -/
private theorem length_parked_eq (m : Std.HashMap DocumentId (List Child)) (id : DocumentId) :
    (m.toList.flatMap fun entry ↦ entry.2.map fun child ↦ (child, entry.1)).length =
      (m.getD id []).length +
        ((m.erase id).toList.flatMap fun entry ↦
          entry.2.map fun child ↦ (child, entry.1)).length := by
  rw [Std.HashMap.getD_eq_getD_getElem?]
  cases h : m[id]? with
  | none =>
    have hm : (m.erase id).Equiv m := by
      apply Std.HashMap.Equiv.of_forall_getElem?_eq
      intro key
      rw [Std.HashMap.getElem?_erase]
      split
      · next hk => rw [← beq_iff_eq.mp hk, h]
      · rfl
    rw [(hm.toList_perm.flatMap_right _).length_eq, Option.getD_none, List.length_nil,
      Nat.zero_add]
  | some children =>
    rw [((toList_perm_cons_erase h).flatMap_right _).length_eq, List.flatMap_cons,
      List.length_append, List.length_map, Option.getD_some]

theorem parked_park (edge : Edge) (shard : Shard) :
    (shard.park edge).parked = shard.parked + 1 := by
  have helsewhere : ((shard.park edge).pending.erase edge.parent).Equiv
      (shard.pending.erase edge.parent) := by
    apply Std.HashMap.Equiv.of_forall_getElem?_eq
    intro key
    rw [Std.HashMap.getElem?_erase, Std.HashMap.getElem?_erase, park, Std.HashMap.getElem?_insert]
    split <;> rfl
  rw [parked, parkedEdges, length_parked_eq _ edge.parent,
    (helsewhere.toList_perm.flatMap_right _).length_eq, parked, parkedEdges,
    length_parked_eq shard.pending edge.parent]
  simp only [park, Std.HashMap.getD_insert_self, List.length_cons, waiting]
  omega

/-- An arriving edge is handed back or parked. -/
theorem parked_arrive (edge : Edge) (shard : Shard) :
    (shard.arrive edge).1.length + (shard.arrive edge).2.parked = shard.parked + 1 := by
  unfold arrive
  split
  · exact Nat.add_comm _ _
  · rw [List.length_nil, Nat.zero_add, parked_park]

/-- The edges handed out are no longer parked. -/
theorem parked_resolve (child : Child) (shard : Shard) :
    (shard.resolve child).1.length + (shard.resolve child).2.parked = shard.parked := by
  unfold resolve parked parkedEdges
  cases h : shard.pending[child.id]? with
  | none => by_cases hr : child.retain = true <;> simp [hr, mark]
  | some children =>
    rw [length_parked_eq shard.pending child.id, Std.HashMap.getD_eq_getD_getElem?, h,
      Option.getD_some]

end Shard

end TreeAudit.Reachability
