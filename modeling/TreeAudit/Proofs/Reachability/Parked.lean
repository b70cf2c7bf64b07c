import TreeAudit.Reachability.Index
import Mathlib.Algebra.BigOperators.Group.Multiset.Basic
import Mathlib.Data.Multiset.Count

/-!
The edges parked in a shard, as a multiset, and what the two atomic operations do to
them. How often an edge is parked is read off the list waiting under its parent
(`count_edges`), so an operation that changes one list changes the multiset by that
list: parking adds an edge (`edges_park`), and resolving a child hands out exactly the
edges parked under it (`edges_resolve`). A shard is tidy when no
waiting list is empty and nothing waits under a reachable id; both operations keep it
so, and in a tidy shard a child is kept as soon as an edge names it.
-/

set_option autoImplicit false
set_option relaxedAutoImplicit false

namespace TreeAudit.Reachability

/-- The edge by which a child is parked under `parent`. -/
def Child.under (parent : DocumentId) (child : Child) : Edge :=
  ⟨child.id, parent, child.retain⟩

@[simp] theorem Child.child_under (parent : DocumentId) (child : Child) :
    (child.under parent).child = child := rfl

theorem Child.under_injective (parent : DocumentId) :
    Function.Injective (Child.under parent) := by
  intro first second h
  simpa using congrArg Edge.child h

theorem Child.count_map_under (edge : Edge) (parent : DocumentId) (children : List Child) :
    (children.map (Child.under parent)).count edge =
      if parent = edge.parent then children.count edge.child else 0 := by
  split_ifs with h
  · subst h
    rw [← List.count_map_of_injective children _ (under_injective edge.parent) edge.child]
    rfl
  · rw [List.count_eq_zero]
    intro hmem
    obtain ⟨child, -, rfl⟩ := List.mem_map.mp hmem
    exact h rfl

namespace Shard

variable {shard : Shard}

/-- The parked edges. -/
def edges (shard : Shard) : Multiset Edge :=
  (shard.parkedEdges.map fun entry ↦ entry.1.under entry.2 : List Edge)

theorem waiting_eq_of_getElem? {id : DocumentId} {children : List Child}
    (h : shard.pending[id]? = some children) : shard.waiting id = children := by
  simp [waiting, Std.HashMap.getD_eq_getD_getElem?, h]

theorem waiting_eq_nil_of_getElem? {id : DocumentId} (h : shard.pending[id]? = none) :
    shard.waiting id = [] := by
  simp [waiting, Std.HashMap.getD_eq_getD_getElem?, h]

/-- Keys are distinct, so all parked copies of an edge wait under its parent. -/
theorem count_edges (shard : Shard) (edge : Edge) :
    shard.edges.count edge = (shard.waiting edge.parent).count edge.child := by
  have hsum : shard.edges.count edge = (shard.pending.toList.map fun entry ↦
      if entry.1 = edge.parent then entry.2.count edge.child else 0).sum := by
    simp only [edges, parkedEdges, Multiset.coe_count, List.map_flatMap, List.map_map,
      List.count_flatMap]
    congr 1
    refine List.map_congr_left fun entry _ ↦ ?_
    exact Child.count_map_under edge entry.1 entry.2
  have hrest (m : Std.HashMap DocumentId (List Child)) (hm : m[edge.parent]? = none) :
      (m.toList.map fun entry ↦
        if entry.1 = edge.parent then entry.2.count edge.child else 0).sum = 0 := by
    refine List.sum_eq_zero fun count hcount ↦ ?_
    obtain ⟨⟨key, children⟩, hentry, rfl⟩ := List.mem_map.mp hcount
    rw [Std.HashMap.mem_toList_iff_getElem?_eq_some] at hentry
    rw [if_neg]
    rintro rfl
    simp [hm] at hentry
  rw [hsum]
  cases hp : shard.pending[edge.parent]? with
  | none => rw [hrest _ hp, waiting_eq_nil_of_getElem? hp, List.count_nil]
  | some children =>
    rw [((toList_perm_cons_erase hp).map _).sum_eq, List.map_cons, List.sum_cons, if_pos rfl,
      hrest _ (by simp), waiting_eq_of_getElem? hp, add_zero]

theorem card_edges (shard : Shard) : shard.edges.card = shard.parked := by
  simp only [edges, parked, Multiset.coe_card, List.length_map]

theorem mem_edges {edge : Edge} :
    edge ∈ shard.edges ↔ edge.child ∈ shard.waiting edge.parent := by
  rw [← Multiset.count_pos, count_edges, List.count_pos_iff]

@[simp] theorem edges_empty : empty.edges = 0 := by
  rw [← Multiset.card_eq_zero, card_edges]
  simp [parked, parkedEdges, empty]

@[simp] theorem edges_mark (id : DocumentId) (shard : Shard) :
    (shard.mark id).edges = shard.edges := rfl

@[simp] theorem waiting_park (edge : Edge) (shard : Shard) (id : DocumentId) :
    (shard.park edge).waiting id =
      if edge.parent = id then edge.child :: shard.waiting id else shard.waiting id := by
  simp only [waiting, park, Std.HashMap.getD_insert, beq_iff_eq]
  split_ifs with h
  · rw [h]
  · rfl

/-- Parking an edge adds one copy of it. -/
theorem edges_park (edge : Edge) (shard : Shard) :
    (shard.park edge).edges = edge ::ₘ shard.edges := by
  ext other
  rw [Multiset.count_cons, count_edges, count_edges, waiting_park]
  by_cases hparent : edge.parent = other.parent
  · rw [if_pos hparent, List.count_cons]
    have hiff : edge.child = other.child ↔ other = edge := by
      obtain ⟨id, parent, retain⟩ := edge
      obtain ⟨id', parent', retain'⟩ := other
      simp only [Edge.child, Child.mk.injEq, Edge.mk.injEq] at hparent ⊢
      grind
    simp only [beq_iff_eq, hiff]
  · rw [if_neg hparent, if_neg fun h ↦ hparent (congrArg Edge.parent h).symm, add_zero]

/-- An arriving edge is handed back under its parent or parked there. -/
theorem edges_arrive (edge : Edge) (shard : Shard) :
    ((shard.arrive edge).1.map (Child.under edge.parent) : Multiset Edge) +
      (shard.arrive edge).2.edges = edge ::ₘ shard.edges := by
  unfold arrive
  split_ifs
  · rfl
  · rw [List.map_nil, Multiset.coe_nil, zero_add, edges_park]

theorem resolve_fst (child : Child) (shard : Shard) :
    (shard.resolve child).1 = shard.waiting child.id := by
  unfold resolve
  cases h : shard.pending[child.id]? with
  | none => exact (waiting_eq_nil_of_getElem? h).symm
  | some children => exact (waiting_eq_of_getElem? h).symm

theorem getElem?_resolve (child : Child) (shard : Shard) (id : DocumentId) :
    (shard.resolve child).2.pending[id]? = if child.id = id then none else shard.pending[id]? := by
  unfold resolve
  cases h : shard.pending[child.id]? with
  | none =>
    have hpending :
        (if child.retain then shard.mark child.id else shard).pending = shard.pending := by
      split_ifs <;> rfl
    rw [hpending]
    split_ifs with hid
    · rw [← hid, h]
    · rfl
  | some children => simp [Std.HashMap.getElem?_erase]

theorem waiting_resolve (child : Child) (shard : Shard) (id : DocumentId) :
    (shard.resolve child).2.waiting id = if child.id = id then [] else shard.waiting id := by
  simp only [waiting, Std.HashMap.getD_eq_getD_getElem?, getElem?_resolve]
  split_ifs <;> rfl

/-- The edges under a resolved child leave the shard. -/
theorem edges_resolve (child : Child) (shard : Shard) :
    ((shard.resolve child).1.map (Child.under child.id) : Multiset Edge) +
      (shard.resolve child).2.edges = shard.edges := by
  ext edge
  rw [Multiset.count_add, Multiset.coe_count, Child.count_map_under, count_edges, count_edges,
    resolve_fst, waiting_resolve]
  split_ifs with h
  · rw [h, List.count_nil, add_zero]
  · rw [zero_add]

theorem mem_reachable_resolve (child : Child) (shard : Shard) (id : DocumentId) :
    id ∈ (shard.resolve child).2.reachable ↔
      id ∈ shard.reachable ∨
        id = child.id ∧ (child.retain = true ∨ child.id ∈ shard.pending) := by
  unfold resolve
  cases hp : shard.pending[child.id]? with
  | none =>
    have hnot : child.id ∉ shard.pending := by simpa using hp
    by_cases hretain : child.retain = true
    · simp only [hretain, if_true, mark, Std.HashSet.mem_insert, beq_iff_eq]
      grind
    · simp [hretain, hnot]
  | some children =>
    have hmem : child.id ∈ shard.pending := by
      rw [Std.HashMap.mem_iff_isSome_getElem?, hp]
      rfl
    simp only [Std.HashSet.mem_insert, beq_iff_eq, hmem, or_true, and_true]
    grind

/-- No waiting list is empty, and nothing waits under a reachable id. -/
structure Tidy (shard : Shard) : Prop where
  waiting_ne_nil : ∀ id : DocumentId, shard.pending[id]? ≠ some []
  not_mem_pending : ∀ id ∈ shard.reachable, id ∉ shard.pending

theorem Tidy.mem_pending_iff (h : shard.Tidy) (id : DocumentId) :
    id ∈ shard.pending ↔ shard.waiting id ≠ [] := by
  cases hp : shard.pending[id]? with
  | none =>
    rw [waiting_eq_nil_of_getElem? hp, Std.HashMap.mem_iff_isSome_getElem?, hp]
    simp
  | some children =>
    have hne : children ≠ [] := fun hnil ↦ h.waiting_ne_nil id (hnil ▸ hp)
    rw [waiting_eq_of_getElem? hp, Std.HashMap.mem_iff_isSome_getElem?, hp]
    simpa using hne

/-- Under a reachable id nothing is parked. -/
theorem Tidy.not_reachable_of_mem_edges (h : shard.Tidy) {edge : Edge} (hmem : edge ∈ shard.edges) :
    edge.parent ∉ shard.reachable := by
  intro hreachable
  refine h.not_mem_pending _ hreachable ((h.mem_pending_iff _).mpr ?_)
  exact List.ne_nil_of_mem (mem_edges.mp hmem)

theorem tidy_empty : empty.Tidy where
  waiting_ne_nil := by simp [empty]
  not_mem_pending := by simp [empty]

theorem Tidy.mark (h : shard.Tidy) {id : DocumentId} (hid : id ∉ shard.pending) :
    (shard.mark id).Tidy where
  waiting_ne_nil := h.waiting_ne_nil
  not_mem_pending := by
    intro other hother
    rcases Std.HashSet.mem_insert.mp hother with heq | hmem
    · rwa [← beq_iff_eq.mp heq]
    · exact h.not_mem_pending other hmem

theorem Tidy.arrive (h : shard.Tidy) (edge : Edge) : (shard.arrive edge).2.Tidy := by
  unfold Shard.arrive
  split_ifs with hparent
  · exact h
  · constructor
    · intro id
      simp only [park, Std.HashMap.getElem?_insert]
      split_ifs
      · simp
      · exact h.waiting_ne_nil id
    · intro id hid
      simp only [park, Std.HashMap.mem_insert, not_or, beq_iff_eq]
      exact ⟨fun heq ↦ hparent (heq ▸ hid), h.not_mem_pending id hid⟩

theorem Tidy.resolve (h : shard.Tidy) (child : Child) : (shard.resolve child).2.Tidy where
  waiting_ne_nil := by
    intro id
    rw [getElem?_resolve]
    split_ifs
    · simp
    · exact h.waiting_ne_nil id
  not_mem_pending := by
    intro id hid
    have hpending : id ∈ (shard.resolve child).2.pending ↔ child.id ≠ id ∧ id ∈ shard.pending := by
      simp only [Std.HashMap.mem_iff_isSome_getElem?, getElem?_resolve]
      split_ifs with hc <;> simp [hc]
    rw [hpending]
    rintro ⟨hne, hmem⟩
    rcases (mem_reachable_resolve child shard id).mp hid with hreachable | ⟨rfl, -⟩
    · exact h.not_mem_pending id hreachable hmem
    · exact hne rfl

end Shard

end TreeAudit.Reachability
