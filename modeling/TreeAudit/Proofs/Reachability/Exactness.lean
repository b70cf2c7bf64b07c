import TreeAudit.Proofs.Reachability.Sharding
import Mathlib.Data.Set.Card

/-!
An index into which edges have been entered, all of them to be retained, answers by the
least set of ids that holds the root and is closed under the edges, whatever their order,
their repetitions and their cycles, and however the ids are spread over shards.
-/

set_option autoImplicit false
set_option relaxedAutoImplicit false

namespace TreeAudit.Reachability.Sharded

/-- The ids connected to the root are the reachable ones and as many as are held; the
edges whose parent is not connected are as many as are pending, and draining lists them
in order. -/
theorem insertAll_ofRoot_exact (hash : DocumentId → UInt64) (count : ℕ) (root : DocumentId)
    (edges : List Edge) (hretain : ∀ edge ∈ edges, edge.retain = true) :
    let index := (ofRoot hash count root).insertAll edges
    (∀ id, index.isReachable id = true ↔ Connected root (Names edges) id) ∧
      Set.encard {id | Connected root (Names edges) id} = index.kept ∧
      index.pending = (detached root edges).card ∧
      (index.drain.1 : Multiset Unresolved) = (detached root edges).map Edge.unresolved ∧
      index.drain.1.Pairwise Unresolved.Before := by
  intro index
  let single := (Index.ofRoot root).insertAll edges
  have hsplits : index.Splits single.shard := (Splits.ofRoot hash count root).insertAll edges
  obtain ⟨handed, hledger⟩ := Index.settled_insertAll_ofRoot root edges
  have hreachable := hledger.mem_reachable_iff_connected hretain
  have hedges : single.shard.edges = detached root edges :=
    hledger.edges_eq_detached (Ledger.accurate_of_retain hretain)
  refine ⟨fun id ↦ ?_, ?_, ?_, ?_, ?_⟩
  · rw [hsplits.isReachable_iff, hreachable]
  · have hids : {id | Connected root (Names edges) id} = (single.shard.ids : Set DocumentId) := by
      ext id
      rw [Set.mem_ofPred_eq, ← hreachable, Finset.mem_coe, Shard.mem_ids]
    rw [hids, Set.encard_coe_eq_coe_finsetCard, Shard.card_ids, hsplits.kept_eq]
  · rw [hsplits.pending_eq, ← Shard.card_edges, hedges]
  · rw [hsplits.drain_eq, ← hedges, ← Shard.coe_unresolved, Multiset.coe_eq_coe]
    exact List.mergeSort_perm _ _
  · rw [hsplits.drain_eq]
    exact Unresolved.pairwise_listing _

/-- A chain entered from its end, one of its edges twice, an edge of the root, and a cycle
apart from them. -/
def chainAndCycle : List Edge :=
  [⟨⟨"b"⟩, ⟨"a"⟩, true⟩, ⟨⟨"a"⟩, ⟨"r"⟩, true⟩, ⟨⟨"a"⟩, ⟨"r"⟩, true⟩, ⟨⟨"x"⟩, ⟨"y"⟩, true⟩,
    ⟨⟨"y"⟩, ⟨"x"⟩, true⟩, ⟨⟨"r"⟩, ⟨"a"⟩, true⟩]

theorem isReachable_chainAndCycle :
    (∀ edge ∈ chainAndCycle, edge.retain = true) ∧
      let index := (ofRoot (fun id ↦ id.text.length.toUInt64) 3 ⟨"r"⟩).insertAll chainAndCycle
      index.isReachable ⟨"b"⟩ = true ∧ index.isReachable ⟨"x"⟩ = false := by
  have hretain : ∀ edge ∈ chainAndCycle, edge.retain = true := by decide
  obtain ⟨hreachable, -⟩ :=
    insertAll_ofRoot_exact (fun id ↦ id.text.length.toUInt64) 3 ⟨"r"⟩ chainAndCycle hretain
  refine ⟨hretain, (hreachable _).mpr ?_, ?_⟩
  · have ha : Names chainAndCycle ⟨"a"⟩ ⟨"r"⟩ := ⟨⟨⟨"a"⟩, ⟨"r"⟩, true⟩, by decide, rfl, rfl⟩
    have hb : Names chainAndCycle ⟨"b"⟩ ⟨"a"⟩ := ⟨⟨⟨"b"⟩, ⟨"a"⟩, true⟩, by decide, rfl, rfl⟩
    exact .child hb (.child ha .root)
  · rw [Bool.eq_false_iff, ne_eq, hreachable]
    intro hx
    exact hx.notMem [⟨"x"⟩, ⟨"y"⟩] (by decide) (by decide) (by decide)

end TreeAudit.Reachability.Sharded
