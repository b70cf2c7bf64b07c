import TreeAudit.Proofs.Check.OrphanReport
import Mathlib.Data.Set.Card

/-!
Trusting the children flags. A check that trusts them forgets every reachable node that is
said to have no children. If no such node is named as a parent, what it forgets is never
asked for: both checks send the same, and the one that trusts holds the root and the
nodes in the tree that are said to have children (`examine_trusting`).
-/

set_option autoImplicit false
set_option relaxedAutoImplicit false

namespace TreeAudit.Check.Orphan

open Report Reachability

/-- No node that is said to have no children is named as a parent, unless it is the root. -/
def FlagsAccurate (root : DocumentId) (documents : List Document) : Prop :=
  ∀ document ∈ documents, document.kind = .node → document.hasChildren = false →
    document.id ≠ root →
      ∀ other ∈ documents, other.kind = .node → other.parent ≠ some document.id

/-- The ids in the tree, other than the root, that some node says may have children. -/
def branching (root : DocumentId) (documents : List Document) : Set DocumentId :=
  {id | ∃ document ∈ live root documents, document.id = id ∧ document.hasChildren = true ∧
    ∃ parent, document.parent = some parent ∧ InTree root documents parent}

variable {root : DocumentId} {trustFlags : Bool} {documents : List Document}

theorem FlagsAccurate.accurate_edges (h : FlagsAccurate root documents) :
    Accurate (edges root trustFlags documents) := by
  intro edge hedge other hother hnamed
  obtain ⟨document, hmem, hid, -, hretain⟩ := mem_edges.mp (Multiset.mem_coe.mp hedge)
  obtain ⟨child, hchild, -, hparent, -⟩ := mem_edges.mp (Multiset.mem_coe.mp hother)
  obtain ⟨hdocument, hkind, hroot⟩ := mem_live.mp hmem
  obtain ⟨hchild, hchildKind, -⟩ := mem_live.mp hchild
  have hflag : document.hasChildren = true := by
    by_contra hnot
    refine h document hdocument hkind (Bool.eq_false_iff.mpr hnot) hroot child hchild hchildKind ?_
    rw [hparent, hnamed, hid]
  rw [hretain, hflag, Bool.or_true]

/-- A check that trusts the flags keeps the root and the ids that may have children. -/
theorem encard_branching (h : FlagsAccurate root documents) (staff : Staff) :
    ((entered root true staff documents).settled.kept : ENat) =
      1 + (branching root documents).encard := by
  obtain ⟨whole, handed, hsplits, hledger⟩ :=
    Crew.exists_whole_join staff root (edges root true documents)
  have hmem (id : DocumentId) : id ∈ whole.reachable ↔
      id = root ∨ id ∈ branching root documents := by
    refine (hledger.mem_reachable_iff h.accurate_edges id).trans (or_congr_right ?_)
    rw [connected_names_edges]
    constructor
    · rintro ⟨edge, hedge, rfl, hretain, hconnected⟩
      obtain ⟨document, hlive, hid, hparent, hflag⟩ := mem_edges.mp (Multiset.mem_coe.mp hedge)
      rw [hretain, Bool.not_true, Bool.false_or] at hflag
      exact ⟨document, hlive, hid, hflag.symm, edge.parent, hparent, hconnected⟩
    · rintro ⟨document, hlive, rfl, hflag, parent, hparent, hconnected⟩
      exact ⟨⟨document.id, parent, true⟩,
        mem_edges.mpr ⟨document, hlive, rfl, hparent, by rw [hflag, Bool.or_true]⟩,
        rfl, rfl, hconnected⟩
  have hroot : root ∉ branching root documents := by
    rintro ⟨document, hlive, hid, -⟩
    exact (mem_live.mp hlive).2.2 hid
  have hids : (whole.ids : Set DocumentId) = insert root (branching root documents) := by
    ext id
    rw [Finset.mem_coe, Shard.mem_ids, hmem, Set.mem_insert_iff]
  rw [settled, entered, hsplits.kept_eq, ← Shard.card_ids, ← Set.encard_coe_eq_coe_finsetCard, hids,
    Set.encard_insert_of_notMem hroot, add_comm]

/-- Whether accurate flags are trusted does not show in what a run sends, nor in how it
fails if the receiver leaves, whoever works in the one and the other. A run that trusts them and has
processed all documents retains the root and one id for each of those that may have children. -/
theorem examine_trusting (root : DocumentId) {documents : List Document}
    (haccurate : FlagsAccurate root documents) (outlet : Outlet) (staff staff' : Staff) :
    (examine root true staff documents outlet).outlet =
        (examine root false staff' documents outlet).outlet ∧
      (examine root true staff documents outlet).failure =
        (examine root false staff' documents outlet).failure ∧
      ((processAll documents (start root true staff) outlet).failure = none →
        ((examine root true staff documents outlet).state.retained : ENat) =
          1 + (branching root documents).encard) := by
  obtain ⟨trusting, htrusting, hretained⟩ := examine_eq root true staff documents outlet
  obtain ⟨plain, hplain, -⟩ := examine_eq root false staff' documents outlet
  rw [verdict_entered haccurate.accurate_edges] at htrusting hplain
  rw [htrusting, hplain]
  refine ⟨rfl, rfl, fun hprocessed ↦ ?_⟩
  obtain ⟨state, hprocess, -⟩ := processAll_entered root true staff [] documents outlet
  rw [start_eq_entered, hprocess, Answer.sending_eq] at hprocessed
  have haccepted : (outlet.sendAll (notices root documents)).2 = true := by
    by_contra hrefused
    rw [if_neg hrefused] at hprocessed
    exact Option.some_ne_none _ hprocessed
  rw [Answer.sending_eq, hretained haccepted, encard_branching haccurate]

/-- A leaf that comes before its parent. -/
def leafFirst : List Document :=
  [⟨⟨"2:/a/x"⟩, some ⟨"1:/a"⟩, .node, false⟩, ⟨⟨"1:/a"⟩, some ⟨"0:/"⟩, .node, true⟩]

theorem examine_trusting_leafFirst :
    FlagsAccurate ⟨"0:/"⟩ leafFirst ∧
      (processAll leafFirst (start ⟨"0:/"⟩ true { workers := 2 }) .unbounded).failure = none ∧
      (examine ⟨"0:/"⟩ true { workers := 2 } leafFirst .unbounded).outlet =
        (examine ⟨"0:/"⟩ false {} leafFirst .unbounded).outlet ∧
      (examine ⟨"0:/"⟩ true { workers := 2 } leafFirst .unbounded).state.retained = 2 := by
  have haccurate : FlagsAccurate ⟨"0:/"⟩ leafFirst := by
    unfold FlagsAccurate
    decide
  have hprocessed : (processAll leafFirst (start ⟨"0:/"⟩ true { workers := 2 })
      .unbounded).failure = none := by
    rw [processAll_of_open _ _ _ _ rfl]
  obtain ⟨houtlet, -, hretained⟩ :=
    examine_trusting ⟨"0:/"⟩ haccurate .unbounded { workers := 2 } {}
  have hbranching : branching ⟨"0:/"⟩ leafFirst = {⟨"1:/a"⟩} := by
    ext id
    constructor
    · rintro ⟨document, hlive, rfl, hflag, -⟩
      revert document
      decide
    · rintro rfl
      exact ⟨⟨⟨"1:/a"⟩, some ⟨"0:/"⟩, .node, true⟩, by decide, rfl, rfl, ⟨"0:/"⟩, rfl, .root⟩
  have htwo := hretained hprocessed
  rw [hbranching, Set.encard_singleton, one_add_one_eq_two] at htwo
  exact ⟨haccurate, hprocessed, houtlet, by exact_mod_cast htwo⟩

end TreeAudit.Check.Orphan
