import TreeAudit.Proofs.Reachability.Sharding
import Mathlib.Algebra.BigOperators.Fin
import Mathlib.Logic.Relation

/-!
Workers that share an index and take edges from one channel. What a worker does while it
holds the lock of a shard is one atomic step: deciding an edge in the shard of its
parent, or resolving a child in the shard of the child. Between two steps of a worker any
number of steps of the others may happen. Whatever they are, the ledger of the whole
balances (`Balanced`), the work lists of all workers taken together. Every step uses up
one unit of load (`load_step`) and a pool that is not settled can make a step, so every
run ends settled, and then no resolution has been lost.
-/

set_option autoImplicit false
set_option relaxedAutoImplicit false

namespace TreeAudit.Reachability

/-- The edges that no worker has taken yet, the children that each worker has found
reachable parents for and has to resolve, and the index. -/
structure Pool (n : ℕ) where
  channel : Multiset Edge
  work : Fin n → List Child
  index : Sharded

namespace Pool

variable {n : ℕ}

def start (n : ℕ) (hash : DocumentId → UInt64) (count : ℕ) (root : DocumentId)
    (edges : Multiset Edge) : Pool n :=
  ⟨edges, fun _ ↦ [], .ofRoot hash count root⟩

/-- One worker makes one step, with one shard locked. -/
inductive Step : Pool n → Pool n → Prop
  /-- A worker with nothing left to resolve takes an edge. If the parent is reachable its
  work starts with the child, otherwise the edge is parked. -/
  | take {pool : Pool n} (worker : Fin n) (edge : Edge) (left : Multiset Edge)
      (hchannel : pool.channel = edge ::ₘ left) (hidle : pool.work worker = []) :
      Step pool
        ⟨left,
          Function.update pool.work worker
            (pool.index.visit edge.parent fun shard ↦ shard.arrive edge).1,
          (pool.index.visit edge.parent fun shard ↦ shard.arrive edge).2⟩
  /-- A worker resolves its next child and goes on with those parked under it. -/
  | resolve {pool : Pool n} (worker : Fin n) (child : Child) (rest : List Child)
      (hwork : pool.work worker = child :: rest) :
      Step pool
        ⟨pool.channel,
          Function.update pool.work worker
            ((pool.index.visit child.id fun shard ↦ shard.resolve child).1 ++ rest),
          (pool.index.visit child.id fun shard ↦ shard.resolve child).2⟩

/-- Any number of steps, in any order of the workers. -/
abbrev Run : Pool n → Pool n → Prop := Relation.ReflTransGen Step

/-- Every edge has been taken and every child resolved. -/
def Settled (pool : Pool n) : Prop := pool.channel = 0 ∧ ∀ worker, pool.work worker = []

/-- The children all workers have to resolve. -/
def remaining (work : Fin n → List Child) : Multiset Child :=
  ∑ worker, (work worker : Multiset Child)

/-- The children the workers other than one have to resolve. -/
def others (work : Fin n → List Child) (worker : Fin n) : Multiset Child :=
  ∑ other ∈ Finset.univ.erase worker, (work other : Multiset Child)

theorem remaining_eq (work : Fin n → List Child) (worker : Fin n) :
    remaining work = work worker + others work worker :=
  (Finset.add_sum_erase _ _ (Finset.mem_univ worker)).symm

theorem remaining_update (work : Fin n → List Child) (worker : Fin n) (children : List Child) :
    remaining (Function.update work worker children) = children + others work worker := by
  rw [remaining_eq _ worker, Function.update_self]
  congr 1
  refine Finset.sum_congr rfl fun other hother ↦ ?_
  rw [Function.update_of_ne (Finset.ne_of_mem_erase hother)]

theorem remaining_eq_zero {work : Fin n → List Child} (h : ∀ worker, work worker = []) :
    remaining work = 0 :=
  Finset.sum_eq_zero fun worker _ ↦ by rw [h worker, Multiset.coe_nil]

/-- The shards split a whole whose ledger balances over the edges taken so far. -/
def Balanced (root : DocumentId) (edges : Multiset Edge) (pool : Pool n) : Prop :=
  ∃ (whole : Shard) (arrived handed : Multiset Edge), pool.index.Splits whole ∧
    edges = arrived + pool.channel ∧ Ledger root arrived handed (remaining pool.work) whole

theorem balanced_start (n : ℕ) (hash : DocumentId → UInt64) (count : ℕ) (root : DocumentId)
    (edges : Multiset Edge) : Balanced root edges (start n hash count root edges) := by
  refine ⟨_, 0, 0, .ofRoot hash count root, (zero_add edges).symm, ?_⟩
  have hwork : remaining (start n hash count root edges).work = 0 :=
    remaining_eq_zero fun _ ↦ rfl
  rw [hwork]
  exact .ofRoot root

theorem Balanced.step {root : DocumentId} {edges : Multiset Edge} {pool next : Pool n}
    (h : Balanced root edges pool) (hstep : Step pool next) : Balanced root edges next := by
  obtain ⟨whole, arrived, handed, hsplits, hedges, hledger⟩ := h
  cases hstep with
  | take worker edge left hchannel hidle =>
    obtain ⟨hwork, hsplits'⟩ := hsplits.arrive edge
    have hledger' := hledger.arrive edge
    rw [remaining_eq _ worker, hidle, Multiset.coe_nil, zero_add, ← hwork,
      ← remaining_update] at hledger'
    refine ⟨_, edge ::ₘ arrived, _, hsplits', ?_, hledger'⟩
    rw [hedges, hchannel, Multiset.add_cons, Multiset.cons_add]
  | resolve worker child rest hwork =>
    obtain ⟨hchildren, hsplits'⟩ := hsplits.resolve child
    rw [remaining_eq _ worker, hwork, ← Multiset.cons_coe, Multiset.cons_add] at hledger
    have hledger' := hledger.resolve
    rw [← hchildren, ← add_assoc, Multiset.coe_add, ← remaining_update] at hledger'
    exact ⟨_, arrived, _, hsplits', hedges, hledger'⟩

theorem Balanced.run {root : DocumentId} {edges : Multiset Edge} {pool final : Pool n}
    (h : Balanced root edges pool) (hrun : Run pool final) : Balanced root edges final := by
  induction hrun with
  | refl => exact h
  | tail _ hstep ih => exact ih.step hstep

/-- Whatever the edges say about being retained, an id is held for a reason: it is connected
by the edges that have been taken so far. -/
theorem connected_of_held {hash : DocumentId → UInt64} {count : ℕ} {root : DocumentId}
    {edges : Multiset Edge} {pool : Pool n} (hrun : Run (start n hash count root edges) pool) :
    ∃ taken, edges = taken + pool.channel ∧
      ∀ id ∈ pool.index.held, Connected root (Names taken) id := by
  obtain ⟨whole, arrived, handed, hsplits, hedges, hledger⟩ :=
    (balanced_start n hash count root edges).run hrun
  refine ⟨arrived, hedges, fun id hid ↦ hledger.connected_of_reachable ?_⟩
  rwa [hsplits.held_perm.mem_iff, Std.HashSet.mem_toList] at hid

/-- And it is the child end of one of them, which asks for it to be kept or is not the only one to
name it. -/
theorem warranted_of_held {hash : DocumentId → UInt64} {count : ℕ} {root : DocumentId}
    {edges : Multiset Edge} {pool : Pool n} (hrun : Run (start n hash count root edges) pool) :
    ∃ taken, edges = taken + pool.channel ∧
      ∀ id ∈ pool.index.held, Warranted root taken taken id := by
  obtain ⟨whole, taken, handed, hsplits, hedges, hledger⟩ :=
    (balanced_start n hash count root edges).run hrun
  refine ⟨taken, hedges, fun id hid ↦ hledger.warranted_arrived ?_⟩
  rwa [hsplits.held_perm.mem_iff, Std.HashSet.mem_toList] at hid

/-- Two units for an edge not taken, one for a child to resolve and one for an edge
parked. -/
def load (pool : Pool n) : ℕ :=
  2 * pool.channel.card + (remaining pool.work).card + pool.index.parked

theorem load_step {pool next : Pool n} (hstep : Step pool next) : next.load + 1 = pool.load := by
  cases hstep with
  | take worker edge left hchannel hidle =>
    have harrive := pool.index.parked_visit_arrive edge
    simp only [load, remaining_update, hchannel, Multiset.card_cons, remaining_eq pool.work worker,
      hidle, Multiset.card_add, Multiset.coe_card, List.length_nil]
    omega
  | resolve worker child rest hwork =>
    have hresolve := pool.index.parked_visit_resolve child
    simp only [load, remaining_update, remaining_eq pool.work worker, hwork, Multiset.card_add,
      Multiset.coe_card, List.length_append, List.length_cons]
    omega

theorem exists_step (hn : 0 < n) {pool : Pool n} (h : ¬ pool.Settled) :
    ∃ next, Step pool next := by
  by_cases hwork : ∀ worker, pool.work worker = []
  · have hchannel : pool.channel ≠ 0 := fun hempty ↦ h ⟨hempty, hwork⟩
    obtain ⟨edge, hmem⟩ := Multiset.exists_mem_of_ne_zero hchannel
    obtain ⟨left, hleft⟩ := Multiset.exists_cons_of_mem hmem
    exact ⟨_, .take ⟨0, hn⟩ edge left hleft (hwork _)⟩
  · obtain ⟨worker, hbusy⟩ := not_forall.mp hwork
    obtain ⟨child, rest, hcons⟩ := List.exists_cons_of_ne_nil hbusy
    exact ⟨_, .resolve worker child rest hcons⟩

/-- Whatever has happened, the pool can go on until it is settled. -/
theorem exists_settled (hn : 0 < n) (pool : Pool n) : ∃ final, Run pool final ∧ final.Settled := by
  induction hload : pool.load generalizing pool with
  | zero =>
    by_contra hnone
    have hopen : ¬ pool.Settled := fun hsettled ↦ hnone ⟨pool, .refl, hsettled⟩
    obtain ⟨next, hstep⟩ := exists_step hn hopen
    have := load_step hstep
    omega
  | succ load ih =>
    by_cases hsettled : pool.Settled
    · exact ⟨pool, .refl, hsettled⟩
    · obtain ⟨next, hstep⟩ := exists_step hn hsettled
      have hnext := load_step hstep
      obtain ⟨final, hrun, hfinal⟩ := ih next (by omega)
      exact ⟨final, hrun.head hstep, hfinal⟩

/-- In a settled pool the shards split a whole that holds all edges and has no child left
to resolve. -/
theorem exists_whole {hash : DocumentId → UInt64} {count : ℕ} {root : DocumentId}
    {edges : Multiset Edge} {pool : Pool n} (hrun : Run (start n hash count root edges) pool)
    (hsettled : pool.Settled) :
    ∃ (whole : Shard) (handed : Multiset Edge),
      pool.index.Splits whole ∧ Ledger root edges handed 0 whole := by
  obtain ⟨hchannel, hwork⟩ := hsettled
  obtain ⟨whole, arrived, handed, hsplits, hedges, hledger⟩ :=
    (balanced_start n hash count root edges).run hrun
  rw [hchannel, add_zero] at hedges
  rw [remaining_eq_zero hwork, ← hedges] at hledger
  exact ⟨whole, handed, hsplits, hledger⟩

/-- No resolution is lost: from every point of a run the pool can be brought to rest, and
whenever it rests, parked are the edges whose parent is not connected to the root, and held
are the root and the retained ids whose parent is connected. -/
theorem settled_exact (hn : 0 < n) (hash : DocumentId → UInt64) (count : ℕ) (root : DocumentId)
    {edges : Multiset Edge} (haccurate : Accurate edges) {pool : Pool n}
    (hrun : Run (start n hash count root edges) pool) :
    (∃ final, Run pool final ∧ final.Settled) ∧
      (pool.Settled → pool.index.edges = detached root edges ∧ pool.index.held.Nodup ∧
        ∀ id, id ∈ pool.index.held ↔ id = root ∨ ∃ edge ∈ edges, edge.id = id ∧
          edge.retain = true ∧ Connected root (Names edges) edge.parent) := by
  refine ⟨exists_settled hn pool, fun hsettled ↦ ?_⟩
  obtain ⟨whole, handed, hsplits, hledger⟩ := exists_whole hrun hsettled
  refine ⟨?_, ?_, fun id ↦ ?_⟩
  · rw [hsplits.edges_eq, hledger.edges_eq_detached haccurate]
  · rw [hsplits.held_perm.nodup_iff]
    exact whole.ids.nodup
  · rw [hsplits.held_perm.mem_iff, Std.HashSet.mem_toList, hledger.mem_reachable_iff haccurate]

/-- A leaf that comes before its parent, and an edge whose parent never comes. -/
def leafAndStray : List Edge :=
  [⟨⟨"b"⟩, ⟨"a"⟩, false⟩, ⟨⟨"a"⟩, ⟨"r"⟩, true⟩, ⟨⟨"y"⟩, ⟨"x"⟩, false⟩]

theorem exists_settled_leafAndStray :
    0 < 2 ∧ Accurate leafAndStray ∧
      ∃ pool, Run (start 2 (fun id ↦ id.text.length.toUInt64) 3 ⟨"r"⟩ leafAndStray) pool ∧
        pool.Settled ∧ ⟨"a"⟩ ∈ pool.index.held ∧ ⟨⟨"y"⟩, ⟨"x"⟩, false⟩ ∈ pool.index.edges := by
  have haccurate : Accurate leafAndStray := by
    unfold Accurate
    decide
  obtain ⟨⟨pool, hrun, hsettled⟩, -⟩ := settled_exact (by decide : 0 < 2)
    (fun id ↦ id.text.length.toUInt64) 3 ⟨"r"⟩ haccurate .refl
  obtain ⟨-, hexact⟩ := settled_exact (by decide : 0 < 2)
    (fun id ↦ id.text.length.toUInt64) 3 ⟨"r"⟩ haccurate hrun
  obtain ⟨hedges, -, hheld⟩ := hexact hsettled
  refine ⟨by decide, haccurate, pool, hrun, hsettled, (hheld _).mpr (.inr ?_), ?_⟩
  · exact ⟨⟨⟨"a"⟩, ⟨"r"⟩, true⟩, by decide, rfl, rfl, .root⟩
  · rw [hedges, mem_detached]
    exact ⟨by decide, fun hx ↦ hx.notMem [⟨"x"⟩] (by decide) (by decide) (by decide)⟩

/-- However the workers took turns, a settled pool lists and counts what one index does
into which the edges were entered in order. -/
theorem settled_eq_insertAll {hash : DocumentId → UInt64} {count : ℕ} {root : DocumentId}
    {edges : List Edge} (haccurate : Accurate edges) {pool : Pool n}
    (hrun : Run (start n hash count root edges) pool) (hsettled : pool.Settled) :
    pool.index.drain.1 = ((Index.ofRoot root).insertAll edges).drain.1 ∧
      pool.index.kept = ((Index.ofRoot root).insertAll edges).kept := by
  obtain ⟨whole, handed, hsplits, hledger⟩ := exists_whole hrun hsettled
  obtain ⟨handed', hledger'⟩ := Index.settled_insertAll_ofRoot root edges
  constructor
  · rw [hsplits.drain_eq]
    refine Unresolved.listing_eq_of_perm (Multiset.coe_eq_coe.mp ?_)
    rw [Shard.coe_unresolved, Shard.coe_unresolved, hledger.edges_eq_detached haccurate,
      hledger'.edges_eq_detached haccurate]
  · have hids : whole.ids = ((Index.ofRoot root).insertAll edges).shard.ids := by
      ext id
      rw [Shard.mem_ids, Shard.mem_ids, hledger.mem_reachable_iff haccurate,
        hledger'.mem_reachable_iff haccurate]
    rw [hsplits.kept_eq, Index.kept, ← Shard.card_ids, ← Shard.card_ids, hids]

end Pool

end TreeAudit.Reachability
