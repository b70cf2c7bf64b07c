import TreeAudit.Proofs.Reachability.Sharding

/-!
What an index replies to operations that are asked of it one after the other. Two kinds of index
reply alike from states that are alike, if every operation finds the same in them and leaves them
alike (`Operations.Simulates.replies_eq`). An index split over shards and the whole that it splits
are so related, drained ones included (`Sharded.simulates`). So neither the hash nor the number of
shards shows in any reply, and a listing does not show the order in which what is parked was found
either (`Sharded.replies_ofRoot`).
-/

set_option autoImplicit false
set_option relaxedAutoImplicit false

namespace TreeAudit.Reachability

/-- What can be asked of an index. -/
inductive Operation where
  | insert (edge : Edge)
  | isReachable (id : DocumentId)
  | kept
  | pending
  | drain
deriving DecidableEq

inductive Reply where
  | inserted
  | reachable (answer : Bool)
  | number (count : ℕ)
  | listing (edges : List Unresolved)
deriving DecidableEq

/-- A kind of index, by what it does when it is asked. -/
structure Operations (ι : Type) where
  insert : Edge → ι → ι
  isReachable : ι → DocumentId → Bool
  kept : ι → ℕ
  pending : ι → ℕ
  drain : ι → List Unresolved × ι

namespace Operations

variable {ι κ : Type} (operations : Operations ι)

/-- The reply to an operation, and the index as it is then. -/
def perform (index : ι) : Operation → Reply × ι
  | .insert edge => (.inserted, operations.insert edge index)
  | .isReachable id => (.reachable (operations.isReachable index id), index)
  | .kept => (.number (operations.kept index), index)
  | .pending => (.number (operations.pending index), index)
  | .drain => (.listing (operations.drain index).1, (operations.drain index).2)

def replies (index : ι) : List Operation → List Reply
  | [] => []
  | operation :: rest =>
    (operations.perform index operation).1 ::
      replies (operations.perform index operation).2 rest

/-- The index after the operations. -/
def after (index : ι) (asked : List Operation) : ι :=
  asked.foldl (fun index operation ↦ (operations.perform index operation).2) index

/-- No operation tells alike states of the two kinds of index apart. -/
structure Simulates (first : Operations ι) (second : Operations κ) (Alike : ι → κ → Prop) :
    Prop where
  insert : ∀ edge index whole, Alike index whole →
    Alike (first.insert edge index) (second.insert edge whole)
  isReachable : ∀ id index whole, Alike index whole →
    first.isReachable index id = second.isReachable whole id
  kept : ∀ index whole, Alike index whole → first.kept index = second.kept whole
  pending : ∀ index whole, Alike index whole → first.pending index = second.pending whole
  drain : ∀ index whole, Alike index whole →
    (first.drain index).1 = (second.drain whole).1 ∧
      Alike (first.drain index).2 (second.drain whole).2

namespace Simulates

variable {first : Operations ι} {second : Operations κ} {Alike : ι → κ → Prop}
  (h : first.Simulates second Alike) {index : ι} {whole : κ}
include h

theorem perform (halike : Alike index whole) (operation : Operation) :
    (first.perform index operation).1 = (second.perform whole operation).1 ∧
      Alike (first.perform index operation).2 (second.perform whole operation).2 := by
  cases operation with
  | insert edge => exact ⟨rfl, h.insert edge index whole halike⟩
  | isReachable id => exact ⟨congrArg Reply.reachable (h.isReachable id index whole halike), halike⟩
  | kept => exact ⟨congrArg Reply.number (h.kept index whole halike), halike⟩
  | pending => exact ⟨congrArg Reply.number (h.pending index whole halike), halike⟩
  | drain =>
    obtain ⟨hlisting, hdrained⟩ := h.drain index whole halike
    exact ⟨congrArg Reply.listing hlisting, hdrained⟩

theorem replies_eq (halike : Alike index whole) (asked : List Operation) :
    first.replies index asked = second.replies whole asked := by
  induction asked generalizing index whole with
  | nil => rfl
  | cons operation rest ih =>
    obtain ⟨hreply, hnext⟩ := h.perform halike operation
    rw [replies, replies, hreply, ih hnext]

end Simulates

end Operations

def Index.operations : Operations Index := ⟨Index.insert, isReachable, kept, pending, drain⟩

namespace Sharded

def operations : Operations Sharded := ⟨Sharded.insert, isReachable, kept, pending, drain⟩

/-- Nothing is left in any shard of a drained index. -/
theorem splits_drain (index : Sharded) : index.drain.2.Splits Shard.empty := by
  constructor <;> intro i hi id <;> simp [drain, Shard.empty]

/-- An index split over shards does what the whole does. -/
theorem simulates :
    operations.Simulates Index.operations fun index single ↦ index.Splits single.shard where
  insert edge _ _ h := h.insert edge
  isReachable id _ single h := by
    refine Bool.eq_iff_iff.mpr ((h.isReachable_iff id).trans ?_)
    exact decide_eq_true_iff.symm
  kept _ _ h := h.kept_eq
  pending _ _ h := h.pending_eq
  drain index _ h := ⟨h.drain_eq, splits_drain index⟩

/-- Whatever is asked of an index split over shards, it replies like one that is not split. If it
is then drained, the listing is in order of ids and parents and is what any order would give in
which the shards and their maps can be gone through. -/
theorem replies_ofRoot (hash : DocumentId → UInt64) (count : ℕ) (root : DocumentId)
    (asked : List Operation) :
    operations.replies (ofRoot hash count root) asked =
        Index.operations.replies (.ofRoot root) asked ∧
      let index := operations.after (ofRoot hash count root) asked
      index.drain.1.Pairwise Unresolved.Before ∧
        ∀ found : List Unresolved, found.Perm (index.shards.toList.flatMap Shard.unresolved) →
          index.drain.1 = found.mergeSort Unresolved.le := by
  have halike : (ofRoot hash count root).Splits (Index.ofRoot root).shard :=
    .ofRoot hash count root
  refine ⟨simulates.replies_eq halike asked, ?_, fun found hfound ↦ ?_⟩
  · exact Unresolved.pairwise_listing _
  · exact (Unresolved.listing_eq_of_perm hfound).symm

end Sharded

end TreeAudit.Reachability
