import TreeAudit.Proofs.Reachability.Ledger
import TreeAudit.Proofs.Reachability.Listing
import Mathlib.Data.Finset.Card
import Mathlib.Data.List.Perm.Basic

/-!
Edges entered into an index one after the other. What every step of a cascade preserves
holds when it has settled (`Cascade.settle_induction`), so the ledger of a shard balances
after every insertion, with no child left to resolve (`Index.Settled`). What the index
answers is then read off the ledger: which ids are held, how many, how many edges are
parked, and what is listed at the end.
-/

set_option autoImplicit false
set_option relaxedAutoImplicit false

namespace TreeAudit.Reachability

theorem Cascade.settle_nil (shard : Shard) : settle ⟨[], shard⟩ = shard :=
  settle_of_step_eq_none rfl

theorem Cascade.settle_cons (child : Child) (rest : List Child) (shard : Shard) :
    settle ⟨child :: rest, shard⟩ =
      settle ⟨(shard.resolve child).1 ++ rest, (shard.resolve child).2⟩ :=
  settle_of_step_eq_some rfl

/-- A property that each step of a cascade preserves holds once nothing is left to
resolve. -/
theorem Cascade.settle_induction {motive : Cascade → Prop}
    (hstep : ∀ cascade next, cascade.step = some next → motive cascade → motive next)
    (cascade : Cascade) (h : motive cascade) : motive ⟨[], cascade.settle⟩ := by
  induction hsize : cascade.outstanding using Nat.strong_induction_on generalizing cascade with
  | _ size ih =>
    cases hnext : cascade.step with
    | none =>
      have hwork : cascade = ⟨[], cascade.shard⟩ := by
        obtain ⟨work, shard⟩ := cascade
        cases work with
        | nil => rfl
        | cons child rest => simp [step] at hnext
      rw [settle_of_step_eq_none hnext, ← hwork]
      exact h
    | some next =>
      rw [settle_of_step_eq_some hnext]
      have hless := outstanding_step hnext
      exact ih next.outstanding (by omega) next (hstep cascade next hnext h) rfl

theorem Ledger.settle {root : DocumentId} {arrived handed : Multiset Edge} {cascade : Cascade}
    (h : Ledger root arrived handed cascade.work cascade.shard) :
    ∃ handed', Ledger root arrived handed' 0 cascade.settle := by
  refine Cascade.settle_induction
    (motive := fun cascade ↦ ∃ handed, Ledger root arrived handed cascade.work cascade.shard)
    ?_ cascade ⟨handed, h⟩
  rintro ⟨work, shard⟩ next hnext ⟨handed, hledger⟩
  cases work with
  | nil => simp [Cascade.step] at hnext
  | cons child rest =>
    simp only [Cascade.step, Option.some.injEq] at hnext
    subst hnext
    rw [← Multiset.cons_coe] at hledger
    have hresolve := hledger.resolve
    rw [Multiset.coe_add] at hresolve
    exact ⟨_, hresolve⟩

/-- The ids held as reachable. -/
def Shard.ids (shard : Shard) : Finset DocumentId :=
  ⟨shard.reachable.toList, by
    simpa [Multiset.coe_nodup, List.Nodup, beq_eq_false_iff_ne] using
      shard.reachable.distinct_toList⟩

@[simp] theorem Shard.mem_ids {shard : Shard} {id : DocumentId} :
    id ∈ shard.ids ↔ id ∈ shard.reachable := by
  simp [ids, ← Finset.mem_val]

theorem Shard.card_ids (shard : Shard) : shard.ids.card = shard.reachable.size := by
  simp [ids, Std.HashSet.length_toList]

/-- What a listing shows of an edge. -/
def Edge.unresolved (edge : Edge) : Unresolved := ⟨edge.id, edge.parent⟩

theorem Shard.coe_unresolved (shard : Shard) :
    (shard.unresolved : Multiset Unresolved) = shard.edges.map Edge.unresolved := by
  simp [unresolved, edges, Function.comp_def, Edge.unresolved, Child.under]

namespace Index

/-- Enters edges in order. -/
def insertAll (edges : List Edge) (index : Index) : Index :=
  edges.foldl (fun index edge ↦ index.insert edge) index

/-- An index whose cascades have all settled, after `arrived` have been entered. -/
def Settled (root : DocumentId) (arrived : Multiset Edge) (index : Index) : Prop :=
  ∃ handed, Ledger root arrived handed 0 index.shard

theorem settled_ofRoot (root : DocumentId) : Settled root 0 (ofRoot root) :=
  ⟨0, .ofRoot root⟩

theorem Settled.insert {root : DocumentId} {arrived : Multiset Edge} {index : Index}
    (h : Settled root arrived index) (edge : Edge) :
    Settled root (edge ::ₘ arrived) (index.insert edge) := by
  obtain ⟨handed, hledger⟩ := h
  have harrive := hledger.arrive edge
  rw [add_zero] at harrive
  exact harrive.settle

theorem Settled.insertAll {root : DocumentId} {arrived : Multiset Edge} {index : Index}
    (h : Settled root arrived index) (edges : List Edge) :
    Settled root (edges + arrived) (index.insertAll edges) := by
  induction edges generalizing arrived index with
  | nil => simpa [Index.insertAll] using h
  | cons edge rest ih =>
    have hrest := ih (h.insert edge)
    rwa [Multiset.add_cons, ← Multiset.cons_add, Multiset.cons_coe] at hrest

theorem settled_insertAll_ofRoot (root : DocumentId) (edges : List Edge) :
    Settled root edges ((ofRoot root).insertAll edges) := by
  simpa using (settled_ofRoot root).insertAll edges

end Index

end TreeAudit.Reachability
