import TreeAudit.Proofs.Reachability.Insertion
import TreeAudit.Reachability.Sharded

/-!
An index split over shards answers as one shard does. The shards split a whole when each
of them holds what the whole holds for the ids that hash to it, and nothing else
(`Sharded.Splits`). Both atomic operations look at one id only, so done in the shard of
that id and in the whole they hand out the same children and leave the shards a split of
the whole (`Splits.arrive`, `Splits.resolve`). What is counted or listed over all shards
is what the whole counts and lists, up to order.
-/

set_option autoImplicit false
set_option relaxedAutoImplicit false

namespace TreeAudit.Reachability.Sharded

variable {index : Sharded} {whole : Shard}

@[simp] theorem size_replace (index : Sharded) (id : DocumentId) (shard : Shard) :
    (index.replace id shard).shards.size = index.shards.size := by
  simp [replace]

@[simp] theorem slot_replace (index : Sharded) (id : DocumentId) (shard : Shard)
    (other : DocumentId) :
    ((index.replace id shard).slot other).val = (index.slot other).val := by
  simp [replace, slot]

theorem getElem_replace (index : Sharded) (id : DocumentId) (shard : Shard) {i : ℕ}
    (hnew : i < (index.replace id shard).shards.size) (hi : i < index.shards.size) :
    (index.replace id shard).shards[i] =
      if (index.slot id).val = i then shard else index.shards[i] := by
  simp [replace, Array.getElem_set]

/-- Each shard holds what the whole holds for the ids that hash to it. -/
structure Splits (index : Sharded) (whole : Shard) : Prop where
  reachable : ∀ (i : ℕ) (hi : i < index.shards.size) (id : DocumentId),
    id ∈ index.shards[i].reachable ↔ (index.slot id).val = i ∧ id ∈ whole.reachable
  pending : ∀ (i : ℕ) (hi : i < index.shards.size) (id : DocumentId),
    index.shards[i].pending[id]? = if (index.slot id).val = i then whole.pending[id]? else none

namespace Splits

theorem mem_reachable_shardOf_iff (h : index.Splits whole) (id other : DocumentId) :
    other ∈ (index.shardOf id).reachable ↔
      (index.slot other).val = (index.slot id).val ∧ other ∈ whole.reachable :=
  h.reachable (index.slot id).val (index.slot id).isLt other

theorem getElem?_shardOf_eq (h : index.Splits whole) (id other : DocumentId) :
    (index.shardOf id).pending[other]? =
      if (index.slot other).val = (index.slot id).val then whole.pending[other]? else none :=
  h.pending (index.slot id).val (index.slot id).isLt other

theorem mem_reachable_shardOf (h : index.Splits whole) (id : DocumentId) :
    id ∈ (index.shardOf id).reachable ↔ id ∈ whole.reachable := by
  rw [h.mem_reachable_shardOf_iff, and_iff_right rfl]

theorem getElem?_shardOf (h : index.Splits whole) (id : DocumentId) :
    (index.shardOf id).pending[id]? = whole.pending[id]? := by
  rw [h.getElem?_shardOf_eq, if_pos rfl]

theorem waiting_shardOf (h : index.Splits whole) (id : DocumentId) :
    (index.shardOf id).waiting id = whole.waiting id := by
  simp only [Shard.waiting, Std.HashMap.getD_eq_getD_getElem?, h.getElem?_shardOf id]

/-- A change in the shard of `id` is a change of the whole if the two agree on the ids that
hash there and the whole changes nowhere else. -/
theorem replace (h : index.Splits whole) (id : DocumentId) {shard next : Shard}
    (hreachable : ∀ other, other ∈ shard.reachable ↔
      (index.slot other).val = (index.slot id).val ∧ other ∈ next.reachable)
    (hpending : ∀ other : DocumentId, shard.pending[other]? =
      if (index.slot other).val = (index.slot id).val then next.pending[other]? else none)
    (hreachable' : ∀ other, other ≠ id → (other ∈ next.reachable ↔ other ∈ whole.reachable))
    (hpending' : ∀ other : DocumentId, other ≠ id → next.pending[other]? = whole.pending[other]?) :
    (index.replace id shard).Splits next where
  reachable := by
    intro i hnew other
    have hi : i < index.shards.size := by simpa using hnew
    rw [getElem_replace _ _ _ hnew hi, slot_replace]
    split_ifs with hslot
    · rw [hreachable other, hslot]
    · rw [h.reachable i hi other]
      refine and_congr_right fun hother ↦ (hreachable' other ?_).symm
      rintro rfl
      exact hslot hother
  pending := by
    intro i hnew other
    have hi : i < index.shards.size := by simpa using hnew
    rw [getElem_replace _ _ _ hnew hi, slot_replace]
    split_ifs with hslot hother hother
    · rw [hpending other, if_pos (hother.trans hslot.symm)]
    · rw [hpending other, if_neg fun heq ↦ hother (heq.trans hslot)]
    · rw [h.pending i hi other, if_pos hother, hpending' other]
      rintro rfl
      exact hslot hother
    · rw [h.pending i hi other, if_neg hother]

theorem arrive (h : index.Splits whole) (edge : Edge) :
    (index.visit edge.parent fun shard ↦ shard.arrive edge).1 = (whole.arrive edge).1 ∧
      (index.visit edge.parent fun shard ↦ shard.arrive edge).2.Splits (whole.arrive edge).2 := by
  rw [visit_eq]
  unfold Shard.arrive
  simp only [h.mem_reachable_shardOf edge.parent]
  split_ifs with hparent
  · exact ⟨rfl, h.replace _ (h.mem_reachable_shardOf_iff _) (h.getElem?_shardOf_eq _)
      (fun _ _ ↦ Iff.rfl) fun _ _ ↦ rfl⟩
  · refine ⟨rfl, h.replace _ (h.mem_reachable_shardOf_iff _) ?_ (fun _ _ ↦ Iff.rfl) ?_⟩
    · intro other
      simp only [Shard.park, Std.HashMap.getElem?_insert, beq_iff_eq, h.waiting_shardOf,
        h.getElem?_shardOf_eq]
      by_cases heq : edge.parent = other
      · simp [heq]
      · simp [heq]
    · intro other hne
      simp [Shard.park, Std.HashMap.getElem?_insert, hne.symm]

theorem resolve (h : index.Splits whole) (child : Child) :
    (index.visit child.id fun shard ↦ shard.resolve child).1 = (whole.resolve child).1 ∧
      (index.visit child.id fun shard ↦ shard.resolve child).2.Splits (whole.resolve child).2 := by
  rw [visit_eq]
  have hmem : child.id ∈ (index.shardOf child.id).pending ↔ child.id ∈ whole.pending := by
    rw [Std.HashMap.mem_iff_isSome_getElem?, Std.HashMap.mem_iff_isSome_getElem?,
      h.getElem?_shardOf]
  refine ⟨by rw [Shard.resolve_fst, Shard.resolve_fst, h.waiting_shardOf], h.replace _ ?_ ?_ ?_ ?_⟩
  · intro other
    rw [Shard.mem_reachable_resolve, Shard.mem_reachable_resolve, h.mem_reachable_shardOf_iff, hmem]
    constructor
    · rintro (⟨hslot, hreachable⟩ | ⟨rfl, hreason⟩)
      · exact ⟨hslot, .inl hreachable⟩
      · exact ⟨rfl, .inr ⟨rfl, hreason⟩⟩
    · rintro ⟨hslot, hreachable | hreason⟩
      · exact .inl ⟨hslot, hreachable⟩
      · exact .inr hreason
  · intro other
    rw [Shard.getElem?_resolve, Shard.getElem?_resolve, h.getElem?_shardOf_eq]
    split_ifs <;> rfl
  · intro other hne
    rw [Shard.mem_reachable_resolve, or_iff_left fun hreason ↦ hne hreason.1]
  · intro other hne
    rw [Shard.getElem?_resolve, if_neg hne.symm]

theorem ofRoot (hash : DocumentId → UInt64) (count : ℕ) (root : DocumentId) :
    (Sharded.ofRoot hash count root).Splits (Index.ofRoot root).shard := by
  let blank : Sharded :=
    { hash := hash
      shards := Array.replicate (max count 1) Shard.empty
      nonempty := by simp only [Array.size_replicate]; omega }
  have hblank : blank.Splits Shard.empty := by
    constructor <;> intro i hi id <;> simp [blank, Shard.empty]
  refine hblank.replace root ?_ ?_ ?_ ?_
  · intro other
    change other ∈ ((blank.shardOf root).mark root).reachable ↔ _
    simp only [Shard.mark, Index.ofRoot, Std.HashSet.mem_insert, hblank.mem_reachable_shardOf_iff,
      beq_iff_eq]
    constructor
    · rintro (rfl | ⟨hslot, hmem⟩)
      · exact ⟨rfl, .inl rfl⟩
      · exact ⟨hslot, .inr hmem⟩
    · rintro ⟨hslot, rfl | hmem⟩
      · exact .inl rfl
      · exact .inr ⟨hslot, hmem⟩
  · exact hblank.getElem?_shardOf_eq root
  · intro other hne
    simp [Shard.mark, Index.ofRoot, hne.symm]
  · exact fun _ _ ↦ rfl

theorem settle (h : index.Splits whole) (work : List Child) :
    (Sharded.settle work index).Splits (Cascade.settle ⟨work, whole⟩) := by
  fun_induction Sharded.settle work index generalizing whole with
  | case1 index =>
    rw [Cascade.settle_nil]
    exact h
  | case2 index child rest visited =>
    rename_i ih
    obtain ⟨hchildren, hsplits⟩ := h.resolve child
    rw [Cascade.settle_cons, ← hchildren]
    exact ih hsplits

theorem insert {single : Index} (h : index.Splits single.shard) (edge : Edge) :
    (index.insert edge).Splits (single.insert edge).shard := by
  obtain ⟨hwork, hsplits⟩ := h.arrive edge
  change (Sharded.settle (index.visit edge.parent fun shard ↦ shard.arrive edge).1 _).Splits
    (Cascade.settle ⟨(single.shard.arrive edge).1, _⟩)
  rw [hwork]
  exact hsplits.settle _

end Splits

/-- The edges parked, over all shards. -/
def edges (index : Sharded) : Multiset Edge :=
  (index.parkedEdges.map fun entry ↦ entry.1.under entry.2 : List Edge)

section Gathering

/-- What the shards hold apart, gathered in a list, is what the whole holds. -/
private theorem perm_flatMap_of_slots {α : Type*} {shards : Array Shard} {items : Shard → List α}
    {all : List α} (slotOf : α → ℕ) (hitems : ∀ shard, (items shard).Nodup) (hall : all.Nodup)
    (hmem : ∀ (i : ℕ) (hi : i < shards.size) (x : α),
      x ∈ items shards[i] ↔ slotOf x = i ∧ x ∈ all)
    (hslot : ∀ x ∈ all, slotOf x < shards.size) :
    (shards.toList.flatMap items).Perm all := by
  have hnodup : (shards.toList.flatMap items).Nodup := by
    refine List.nodup_flatMap.mpr ⟨fun shard _ ↦ hitems shard, ?_⟩
    refine List.pairwise_iff_getElem.mpr fun i j hi hj hij x hx hx' ↦ ?_
    have hxi := (hmem i (by simpa using hi) x).mp (by simpa using hx)
    have hxj := (hmem j (by simpa using hj) x).mp (by simpa using hx')
    omega
  refine (List.perm_ext_iff_of_nodup hnodup hall).mpr fun x ↦ ?_
  rw [List.mem_flatMap]
  constructor
  · rintro ⟨shard, hshard, hx⟩
    obtain ⟨i, hi, rfl⟩ := List.getElem_of_mem hshard
    exact ((hmem i (by simpa using hi) x).mp (by simpa using hx)).2
  · intro hx
    have hlt := hslot x hx
    exact ⟨shards[slotOf x], by simp, (hmem _ hlt x).mpr ⟨rfl, hx⟩⟩

variable (h : index.Splits whole)

include h

theorem Splits.held_perm : index.held.Perm whole.reachable.toList := by
  have hnodup (shard : Shard) : shard.reachable.toList.Nodup := by
    simpa [List.Nodup, beq_eq_false_iff_ne] using shard.reachable.distinct_toList
  refine perm_flatMap_of_slots (fun id ↦ (index.slot id).val) hnodup (hnodup whole) ?_
    fun id _ ↦ (index.slot id).isLt
  intro i hi id
  simpa using h.reachable i hi id

theorem Splits.perm_pending :
    (index.shards.toList.flatMap fun shard ↦ shard.pending.toList).Perm whole.pending.toList := by
  have hnodup (shard : Shard) : shard.pending.toList.Nodup := by
    refine shard.pending.distinct_keys_toList.imp fun {a b} hkeys hab ↦ ?_
    simp [hab] at hkeys
  refine perm_flatMap_of_slots (fun entry ↦ (index.slot entry.1).val) hnodup
    (hnodup whole) ?_ fun entry _ ↦ (index.slot entry.1).isLt
  rintro i hi ⟨id, children⟩
  rw [Std.HashMap.mem_toList_iff_getElem?_eq_some, Std.HashMap.mem_toList_iff_getElem?_eq_some,
    h.pending i hi id]
  split_ifs with hslot <;> simp [hslot]

theorem Splits.isReachable_iff (id : DocumentId) :
    index.isReachable id = true ↔ id ∈ whole.reachable := by
  rw [isReachable, decide_eq_true_eq, h.mem_reachable_shardOf]

theorem Splits.kept_eq : index.kept = whole.reachable.size := by
  rw [kept, h.held_perm.length_eq, Std.HashSet.length_toList]

theorem Splits.perm_parkedEdges : index.parkedEdges.Perm whole.parkedEdges := by
  have hperm := h.perm_pending.flatMap_right fun entry : DocumentId × List Child ↦
    entry.2.map fun child ↦ (child, entry.1)
  rwa [List.flatMap_assoc] at hperm

theorem Splits.edges_eq : index.edges = whole.edges :=
  Multiset.coe_eq_coe.mpr (h.perm_parkedEdges.map _)

theorem Splits.perm_unresolved :
    (index.shards.toList.flatMap Shard.unresolved).Perm whole.unresolved := by
  have hperm := h.perm_parkedEdges.map fun entry ↦ (⟨entry.1.id, entry.2⟩ : Unresolved)
  rwa [parkedEdges, List.map_flatMap] at hperm

theorem Splits.pending_eq : index.pending = whole.parked :=
  h.perm_parkedEdges.length_eq

theorem Splits.drain_eq : index.drain.1 = whole.unresolved.mergeSort Unresolved.le :=
  Unresolved.listing_eq_of_perm h.perm_unresolved

end Gathering

/-- Enters edges in order. -/
def insertAll (edges : List Edge) (index : Sharded) : Sharded :=
  edges.foldl (fun index edge ↦ index.insert edge) index

theorem Splits.insertAll {single : Index} (h : index.Splits single.shard) (edges : List Edge) :
    (index.insertAll edges).Splits (single.insertAll edges).shard := by
  induction edges generalizing index single with
  | nil => exact h
  | cons edge rest ih => exact ih (h.insert edge)

end TreeAudit.Reachability.Sharded
