import TreeAudit.Proofs.Check.PathTree

/-!
Trees with long paths. A child refers to its parent by the id of the parent's path, also
where the parent is stored under a hash of it, and then the child is not attached. So in a
tree that is whole the orphans are the nodes below a hashed one (`examine_decoded`), and there
are none only if no hashed node has children.
-/

set_option autoImplicit false
set_option relaxedAutoImplicit false

namespace TreeAudit.Check.Orphan

open Report Reachability

/-- Some ancestor of the path is stored under a hashed id. -/
def BelowHashed (stored : List StoredNode) (path : TreePath) : Prop :=
  ∃ ancestor hash h, .hashed ancestor hash h ∈ stored ∧ ancestor < path

variable {stored : List StoredNode}

/-- In a whole tree only hashed nodes can cut off others. -/
theorem cutOff_iff_belowHashed (hpaths : (stored.map StoredNode.path).Nodup)
    (hwhole : IsLowerSet {path | path ∈ stored.map StoredNode.path}) {node : StoredNode}
    (hnode : node ∈ stored) :
    CutOff (plainPaths stored) node.path ↔ BelowHashed stored node.path := by
  constructor
  · rintro ⟨ancestor, -, hlt, hout⟩
    obtain ⟨other, hother, rfl⟩ : ∃ other ∈ stored, other.path = ancestor :=
      List.mem_map.mp (hwhole hlt.le (List.mem_map.mpr ⟨node, hnode, rfl⟩))
    cases other with
    | plain path => exact absurd (mem_plainPaths.mpr hother) hout
    | hashed path hash h => exact ⟨path, hash, h, hother, hlt⟩
  · rintro ⟨ancestor, hash, h, hother, hlt⟩
    refine ⟨ancestor, h, hlt, fun hplain ↦ ?_⟩
    have hsame := List.inj_on_of_nodup_map hpaths (mem_plainPaths.mp hplain) hother rfl
    exact StoredNode.noConfusion hsame

/-- Of the nodes of a whole tree, decoded from their texts in any order, those below a hashed
one are reported, each once, as orphans of the path above them. There are no orphans if and
only if no node is below a hashed one. -/
theorem examine_decoded {texts : List String} (hpaths : (stored.map StoredNode.path).Nodup)
    (hwhole : IsLowerSet {path | path ∈ stored.map StoredNode.path})
    (htexts : List.Forall₂ StoredNode.WrittenAs stored texts) (staff : Staff) {outlet : Outlet}
    (hopen : outlet.room = none) :
    ∃ (documents : List Document) (orphans : List StoredNode),
      let examined := examine .treeRoot false staff documents outlet
      texts.mapM (Store.decode none) = .ok documents ∧
        examined.failure = none ∧
        examined.outlet.sent = outlet.sent ++
          (cutOffReport (plainPaths stored) orphans stored.length).toArray ∧
        orphans.Nodup ∧
        (∀ node, node ∈ orphans ↔ node ∈ stored ∧ BelowHashed stored node.path) ∧
        (orphans = [] ↔ ∀ node ∈ stored, ¬ BelowHashed stored node.path) := by
  classical
  obtain ⟨documents, hdecode, hholds⟩ := StoredNode.exists_mapM_decode htexts
  obtain ⟨orphans, hperm, hfailure, hsent⟩ := examine_stored hholds staff hopen
  have hmem (node : StoredNode) :
      node ∈ orphans ↔ node ∈ stored ∧ BelowHashed stored node.path := by
    rw [hperm.mem_iff, List.mem_filter, decide_eq_true_eq]
    exact and_congr_right (cutOff_iff_belowHashed hpaths hwhole)
  refine ⟨documents, orphans, hdecode, hfailure, hsent, ?_, hmem, ?_⟩
  · exact hperm.nodup_iff.mpr (hpaths.of_map.filter _)
  · simp only [List.eq_nil_iff_forall_not_mem, hmem, not_and]

/-- The path `/a/b`. -/
def inner : TreePath := ⟨[['a'], ['b']], by decide, by decide, by decide⟩

/-- The nodes at `/a/b` and above it, the lowest under a hash. -/
def hashedLeaf : List StoredNode :=
  [.hashed inner "f00d" (by decide), .plain inner.parent, .plain ⊥]

def hashedLeafTexts : List String :=
  ["\x7b\"_id\":\"2:hf00d\",\"_path\":\"/a/b\"\x7d", "\x7b\"_id\":\"1:/a\"\x7d",
    "\x7b\"_id\":\"0:/\"\x7d"]

theorem examine_decoded_hashedLeaf :
    (hashedLeaf.map StoredNode.path).Nodup ∧
      IsLowerSet {path | path ∈ hashedLeaf.map StoredNode.path} ∧
      List.Forall₂ StoredNode.WrittenAs hashedLeaf hashedLeafTexts ∧
      Outlet.unbounded.room = none ∧
      ∃ documents, hashedLeafTexts.mapM (Store.decode none) = .ok documents ∧
        (examine .treeRoot false { workers := 2 } documents .unbounded).outlet.sent.toList =
          [.status "orphan check orphans=0 examined=3"] := by
  have hpaths : (hashedLeaf.map StoredNode.path).Nodup := by decide
  have hwhole : IsLowerSet {path | path ∈ hashedLeaf.map StoredNode.path} :=
    TreePath.isLowerSet_of_parent (by decide)
  have htexts : List.Forall₂ StoredNode.WrittenAs hashedLeaf hashedLeafTexts := by
    decide +kernel
  have hopen : Outlet.unbounded.room = none := rfl
  obtain ⟨documents, orphans, hdecode, -, hsent, -, -, hnone⟩ :=
    examine_decoded hpaths hwhole htexts { workers := 2 } hopen
  have horphans : orphans = [] := by
    have hlowest : ∀ node ∈ hashedLeaf, ¬ inner < node.path := by decide
    refine hnone.mpr fun node hnode hbelow ↦ hlowest node hnode ?_
    obtain ⟨ancestor, hash, h, hhashed, hlt⟩ := hbelow
    simp only [hashedLeaf, List.mem_cons, StoredNode.hashed.injEq, reduceCtorEq, List.not_mem_nil,
      or_false] at hhashed
    rwa [← hhashed.1]
  refine ⟨hpaths, hwhole, htexts, hopen, documents, hdecode, ?_⟩
  rw [hsent, horphans]
  decide

/-- The same nodes, the one in the middle under a hash. -/
def hashedParent : List StoredNode :=
  [.plain ⊥, .hashed inner.parent "f00d" (by decide), .plain inner]

def hashedParentTexts : List String :=
  ["\x7b\"_id\":\"0:/\"\x7d", "\x7b\"_id\":\"1:hf00d\",\"_path\":\"/a\"\x7d",
    "\x7b\"_id\":\"2:/a/b\"\x7d"]

/-- A whole tree in which a node is reported to have no parent. -/
theorem missingParent_hashedParent :
    (hashedParent.map StoredNode.id).Nodup ∧ (hashedParent.map StoredNode.path).Nodup ∧
      IsLowerSet {path | path ∈ hashedParent.map StoredNode.path} ∧
      List.Forall₂ StoredNode.WrittenAs hashedParent hashedParentTexts ∧
      ∃ documents, hashedParentTexts.mapM (Store.decode none) = .ok documents ∧
        .finding ⟨"orphan", .corruption, some ⟨"2:/a/b"⟩, some ⟨"1:/a"⟩,
            "orphaned node: missing parent 1:/a"⟩ ∈
          (examine .treeRoot false { workers := 2 } documents .unbounded).outlet.sent := by
  have htexts : List.Forall₂ StoredNode.WrittenAs hashedParent hashedParentTexts := by
    decide +kernel
  classical
  obtain ⟨documents, hdecode, hholds⟩ := StoredNode.exists_mapM_decode htexts
  have hopen : Outlet.unbounded.room = none := rfl
  obtain ⟨orphans, hperm, -, hsent⟩ := examine_stored hholds { workers := 2 } hopen
  have hcut : StoredNode.plain inner ∈ orphans := by
    rw [hperm.mem_iff, List.mem_filter, decide_eq_true_eq]
    exact ⟨by decide, inner.parent, by decide⟩
  refine ⟨by decide, by decide, TreePath.isLowerSet_of_parent (by decide), htexts, documents,
    hdecode, ?_⟩
  rw [hsent, Array.mem_append]
  refine .inr (List.mem_toArray.mpr (List.mem_append.mpr (.inl ?_)))
  exact List.mem_map.mpr ⟨.plain inner, hcut, by decide⟩

end TreeAudit.Check.Orphan
