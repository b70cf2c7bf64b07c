import TreeAudit.Proofs.Check.OrphanRun

/-!
How much an orphan check holds. An id other than the root is held only if an edge brought it, and
if the edge asks for it to be kept or another one names it as the parent (`Warranted`). That is so
at every moment, whatever the edges ask for, in whatever order they come and however workers take
turns with them.

A check that trusts the children flags asks only for ids that are said to have children. If these
are all named as parents by nodes, so is all that it holds besides the root
(`mem_parentsNamed_of_warranted`): the check has room for a tree whose leaves are beyond counting
(`retained_le_of_flagsNamed`).
-/

set_option autoImplicit false
set_option relaxedAutoImplicit false

namespace TreeAudit

open Reachability

/-- So many ids are held at most, if those with a reason to be are all listed. -/
theorem Reachability.Ledger.size_le {root : DocumentId} {arrived handed : Multiset Edge}
    {work : Multiset Child} {shard : Shard} (h : Ledger root arrived handed work shard)
    {listed : Finset DocumentId}
    (hlisted : ∀ id, Warranted root arrived arrived id → id = root ∨ id ∈ listed) :
    shard.reachable.size ≤ 1 + listed.card := by
  have hids : shard.ids ⊆ insert root listed := fun id hid ↦
    Finset.mem_insert.mpr (hlisted id (h.warranted_arrived (Shard.mem_ids.mp hid)))
  calc shard.reachable.size = shard.ids.card := shard.card_ids.symm
    _ ≤ (insert root listed).card := Finset.card_le_card hids
    _ ≤ listed.card + 1 := Finset.card_insert_le _ _
    _ = 1 + listed.card := Nat.add_comm _ _

namespace Check.Orphan

open Report

/-- The ids that nodes name as their parents. -/
def parentsNamed (documents : List Document) : Finset DocumentId :=
  ((documents.filter fun document ↦ document.kind = .node).filterMap Document.parent).toFinset

/-- Only ids that are named as parents are said to have children. -/
def FlagsNamed (root : DocumentId) (documents : List Document) : Prop :=
  ∀ document ∈ live root documents, document.hasChildren = true →
    document.id ∈ parentsNamed documents

variable {root : DocumentId} {documents : List Document}

theorem mem_parentsNamed {id : DocumentId} : id ∈ parentsNamed documents ↔
    ∃ document ∈ documents, document.kind = .node ∧ document.parent = some id := by
  simp [parentsNamed, and_assoc]

/-- What there is a reason to hold is named as a parent. -/
theorem mem_parentsNamed_of_warranted (hflags : FlagsNamed root documents)
    {arrived : Multiset Edge} (harrived : arrived ⊆ edges root true documents) {id : DocumentId}
    (h : Warranted root arrived arrived id) : id = root ∨ id ∈ parentsNamed documents := by
  rcases h with hroot | ⟨edge, hedge, rfl, hretain | ⟨other, hother, hnamed⟩⟩
  · exact .inl hroot
  · obtain ⟨document, hlive, hid, -, hflag⟩ := mem_edges.mp (harrived hedge)
    rw [hretain, Bool.not_true, Bool.false_or] at hflag
    exact .inr (hid ▸ hflags document hlive hflag.symm)
  · obtain ⟨document, hlive, -, hparent, -⟩ := mem_edges.mp (harrived hother)
    obtain ⟨hmem, hkind, -⟩ := mem_live.mp hlive
    exact .inr (mem_parentsNamed.mpr ⟨document, hmem, hkind, hnamed ▸ hparent⟩)

/-- How many ids are held is not taken down before the end. -/
theorem retained_process (document : Document) (orphan : Orphan) (outlet : Outlet) :
    (process document orphan outlet).state.retained = orphan.retained := by
  unfold process
  dsimp only
  split
  · rfl
  · split
    · rfl
    · split
      · rfl
      · split <;> rfl

theorem retained_processAll (documents : List Document) (orphan : Orphan) (outlet : Outlet) :
    (processAll documents orphan outlet).state.retained = orphan.retained := by
  induction documents generalizing orphan outlet with
  | nil => rfl
  | cons document rest ih =>
    rw [processAll, Answer.andThen]
    split
    · rw [ih, retained_process]
    · exact retained_process document orphan outlet

theorem kept_entered_le (hflags : FlagsNamed root documents) (staff : Staff) :
    (entered root true staff documents).settled.kept ≤ 1 + (parentsNamed documents).card := by
  obtain ⟨whole, handed, hsplits, hledger⟩ :=
    Crew.exists_whole_join staff root (edges root true documents)
  rw [settled, entered, hsplits.kept_eq]
  exact hledger.size_le fun id ↦ mem_parentsNamed_of_warranted hflags (Multiset.Subset.refl _)

/-- A run that trusts the flags retains at most the root and what is named as a parent, however
many documents there are and whether the receiver stays or not. -/
theorem retained_examine_le (hflags : FlagsNamed root documents) (staff : Staff)
    (outlet : Outlet) :
    (examine root true staff documents outlet).state.retained ≤
      1 + (parentsNamed documents).card := by
  obtain ⟨state, hprocess, hstate⟩ := processAll_entered root true staff [] documents outlet
  obtain ⟨final, hexamine, hretained⟩ := examine_eq root true staff documents outlet
  by_cases haccepted : (outlet.sendAll (notices root documents)).2 = true
  · rw [hexamine, Answer.sending_eq, hretained haccepted]
    exact kept_entered_le hflags staff
  · have hstopped : (processAll documents (start root true staff) outlet).failure =
        some .receiverGone := by
      rw [start_eq_entered, hprocess, Answer.sending_eq]
      exact if_neg haccepted
    have hleft : examine root true staff documents outlet =
        processAll documents (start root true staff) outlet := by
      rw [examine, Answer.andThen, hstopped]
    rw [hleft, retained_processAll]
    exact Nat.zero_le _

/-- Whatever the edges ask for, every id that is held besides the root was brought by an edge, and
is to be kept or named as a parent: after any list of edges, and at any moment of workers that take
turns, by the edges taken so far. So a check that trusts the flags, where only ids that nodes name
as parents are said to have children, holds at no moment more ids than are so named and the root,
however many documents there are, and takes down no more at the end. -/
theorem retained_le_of_flagsNamed (root : DocumentId) :
    (∀ (hash : DocumentId → UInt64) (count : ℕ) (edges : List Edge),
        ∀ id ∈ ((Sharded.ofRoot hash count root).insertAll edges).held,
          Warranted root edges edges id) ∧
      (∀ (n : ℕ) (hash : DocumentId → UInt64) (count : ℕ) (edges : Multiset Edge) (pool : Pool n),
        Pool.Run (Pool.start n hash count root edges) pool →
          ∃ taken, edges = taken + pool.channel ∧
            ∀ id ∈ pool.index.held, Warranted root taken taken id) ∧
      ∀ documents, FlagsNamed root documents →
        (∀ staff outlet, (examine root true staff documents outlet).state.retained ≤
          1 + (parentsNamed documents).card) ∧
        ∀ (n : ℕ) (hash : DocumentId → UInt64) (count : ℕ) (pool : Pool n),
          Pool.Run (Pool.start n hash count root (edges root true documents)) pool →
            pool.index.kept ≤ 1 + (parentsNamed documents).card := by
  refine ⟨fun hash count edges id hid ↦ ?_, fun n hash count edges pool hrun ↦ ?_,
    fun documents hflags ↦ ⟨retained_examine_le hflags, fun n hash count pool hrun ↦ ?_⟩⟩
  · have hsplits := (Sharded.Splits.ofRoot hash count root).insertAll edges
    obtain ⟨handed, hledger⟩ := Index.settled_insertAll_ofRoot root edges
    refine hledger.warranted_arrived ?_
    rwa [hsplits.held_perm.mem_iff, Std.HashSet.mem_toList] at hid
  · exact Pool.warranted_of_held hrun
  · obtain ⟨whole, taken, handed, hsplits, hedges, hledger⟩ :=
      (Pool.balanced_start n hash count root (edges root true documents)).run hrun
    rw [hsplits.kept_eq]
    refine hledger.size_le fun id ↦ mem_parentsNamed_of_warranted hflags ?_
    rw [hedges]
    exact Multiset.subset_of_le (Multiset.le_add_right _ _)

/-- A node with leaves below it, one of which comes first. -/
def leavesAround : List Document :=
  [⟨⟨"2:/a/x"⟩, some ⟨"1:/a"⟩, .node, false⟩, ⟨⟨"1:/a"⟩, some ⟨"0:/"⟩, .node, true⟩,
    ⟨⟨"2:/a/y"⟩, some ⟨"1:/a"⟩, .node, false⟩, ⟨⟨"1:/b"⟩, some ⟨"0:/"⟩, .node, false⟩]

theorem retained_le_of_flagsNamed_leavesAround :
    FlagsNamed ⟨"0:/"⟩ leavesAround ∧
      (examine ⟨"0:/"⟩ true { workers := 2 } leavesAround .unbounded).state.retained ≤ 3 := by
  have hflags : FlagsNamed ⟨"0:/"⟩ leavesAround := by
    unfold FlagsNamed
    decide
  have hnamed : (parentsNamed leavesAround).card = 2 := by decide
  obtain ⟨-, -, hretained⟩ := retained_le_of_flagsNamed ⟨"0:/"⟩
  have hle := (hretained leavesAround hflags).1 { workers := 2 } .unbounded
  rw [hnamed] at hle
  exact ⟨hflags, hle⟩

end Check.Orphan

end TreeAudit
