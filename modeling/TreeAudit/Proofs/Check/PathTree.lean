import TreeAudit.Proofs.Check.OrphanReport
import TreeAudit.Proofs.Document.StoredNode

/-!
Orphans of a path tree. If the documents are those of the nodes of a tree, each child of the
node stored under the path of its parent, then a path id hangs off the root if and only if
every path from it up to the root is stored under its id (`inTree_id_iff`). The orphans are
the nodes that are cut off by an ancestor that is not (`examine_stored`). With all nodes
stored under the ids of their paths they are the paths below one that is missing
(`examine_paths`).
-/

set_option autoImplicit false
set_option relaxedAutoImplicit false

namespace TreeAudit.Check.Orphan

open Report Reachability

/-- Some ancestor of the path, other than the root, is not among the paths. -/
def CutOff (paths : List TreePath) (path : TreePath) : Prop :=
  ∃ ancestor, ancestor ≠ ⊥ ∧ ancestor < path ∧ ancestor ∉ paths

/-- The paths whose nodes are stored under their ids. -/
def plainPaths (stored : List StoredNode) : List TreePath :=
  stored.filterMap fun node ↦
    match node with
    | .plain path => some path
    | .hashed _ _ _ => none

/-- The reference by which a node hangs off its parent. -/
def referenceOf (node : StoredNode) : Unresolved := ⟨node.id, node.path.parent.id⟩

/-- What is reported about a node that is cut off. -/
def cutOffFinding (paths : List TreePath) (node : StoredNode) : Finding where
  check := "orphan"
  severity := .corruption
  id := some node.id
  parent := some node.path.parent.id
  description :=
    if node.path.parent ∈ paths then
      "orphaned node: ancestor " ++ node.path.parent.id.text ++ " is not reachable"
    else "orphaned node: missing parent " ++ node.path.parent.id.text

/-- A report on the nodes that are cut off. -/
def cutOffReport (paths : List TreePath) (orphans : List StoredNode) (examined : ℕ) :
    List Entry :=
  (orphans.map fun node ↦ .finding (cutOffFinding paths node)) ++
    [.status (tally orphans.length examined)]

variable {stored : List StoredNode} {documents : List Document} {path : TreePath}

@[simp] theorem mem_plainPaths : path ∈ plainPaths stored ↔ .plain path ∈ stored := by
  rw [plainPaths, List.mem_filterMap]
  constructor
  · rintro ⟨node, hmem, hnode⟩
    cases node with
    | plain own => rwa [← Option.some.inj hnode]
    | hashed own hash h => exact absurd hnode.symm (Option.some_ne_none path)
  · exact fun hmem ↦ ⟨.plain path, hmem, rfl⟩

theorem plainPaths_perm {other : List StoredNode} (h : stored.Perm other) :
    (plainPaths stored).Perm (plainPaths other) := h.filterMap _

theorem plainPaths_map_plain (order : List TreePath) : plainPaths (order.map .plain) = order := by
  rw [plainPaths, List.filterMap_map]
  exact List.filterMap_some

section Stored

variable (hstored : List.Forall₂ StoredNode.Holds stored documents)

include hstored

/-- The live nodes are those of the nodes other than the root. -/
theorem forall₂_live :
    List.Forall₂ (fun node document ↦
        document.id = node.id ∧ document.parent = some node.path.parent.id)
      (stored.filter fun node ↦ node.path ≠ ⊥) (live .treeRoot documents) := by
  induction hstored with
  | nil => exact .nil
  | @cons node document stored documents hnode _ ih =>
    have hroot : document.id = .treeRoot ↔ node.path = ⊥ := by
      rw [hnode.id, StoredNode.id_eq_treeRoot_iff]
    by_cases hpath : node.path = ⊥
    · rw [List.filter_cons_of_neg (by simpa using hpath), live,
        List.filter_cons_of_neg (by simp [hroot.mpr hpath])]
      exact ih
    · have hid : document.id ≠ .treeRoot := hroot.not.mpr hpath
      rw [List.filter_cons_of_pos (by simpa using hpath), live,
        List.filter_cons_of_pos (by simp [hnode.kind, hid])]
      exact .cons ⟨hnode.id, hnode.parent hpath⟩ ih

theorem references_eq : references .treeRoot documents =
    (stored.filter fun node ↦ node.path ≠ ⊥).map referenceOf := by
  have hlive := forall₂_live hstored
  rw [references]
  generalize stored.filter _ = below, live .treeRoot documents = living at hlive ⊢
  induction hlive with
  | nil => rfl
  | cons hnode _ ih =>
    rw [List.map_cons, ← ih, List.filterMap_cons, hnode.1, hnode.2]
    rfl

theorem map_id_live : (live .treeRoot documents).map Document.id =
    (stored.filter fun node ↦ node.path ≠ ⊥).map StoredNode.id := by
  have hlive := forall₂_live hstored
  generalize stored.filter _ = below, live .treeRoot documents = living at hlive ⊢
  induction hlive with
  | nil => rfl
  | cons hnode _ ih => rw [List.map_cons, List.map_cons, ih, hnode.1]

theorem parentless_eq_nil : parentless .treeRoot documents = [] := by
  have hlive := forall₂_live hstored
  rw [parentless, List.map_eq_nil_iff]
  generalize stored.filter _ = below, live .treeRoot documents = living at hlive ⊢
  induction hlive with
  | nil => rfl
  | cons hnode _ ih => rw [List.filter_cons_of_neg (by simp [hnode.2]), ih]

theorem nodes_eq_length : nodes documents = stored.length := by
  rw [nodes]
  induction hstored with
  | nil => rfl
  | cons hnode _ ih =>
    rw [List.countP_cons, ih, List.length_cons, if_pos (decide_eq_true hnode.kind)]

theorem exists_live_id_iff (hpath : path ≠ ⊥) :
    (∃ document ∈ live .treeRoot documents, document.id = path.id) ↔
      path ∈ plainPaths stored := by
  rw [← List.mem_map, map_id_live hstored, List.mem_map, mem_plainPaths]
  constructor
  · rintro ⟨node, hnode, hid⟩
    obtain rfl := StoredNode.id_eq_iff.mp hid
    exact List.mem_of_mem_filter hnode
  · exact fun hmem ↦ ⟨.plain path, List.mem_filter.mpr ⟨hmem, decide_eq_true hpath⟩, rfl⟩

/-- Only the node stored under the id of a path refers from it to a parent. -/
theorem refers_id_iff (hpath : path ≠ ⊥) {parent : DocumentId} :
    Refers .treeRoot documents path.id parent ↔
      path ∈ plainPaths stored ∧ parent = path.parent.id := by
  rw [← @mem_references .treeRoot documents ⟨path.id, parent⟩, references_eq hstored,
    List.mem_map, mem_plainPaths]
  constructor
  · rintro ⟨node, hnode, heq⟩
    obtain ⟨hid, hparent⟩ := Unresolved.mk.inj heq
    obtain rfl := StoredNode.id_eq_iff.mp hid
    exact ⟨List.mem_of_mem_filter hnode, hparent.symm⟩
  · rintro ⟨hmem, rfl⟩
    exact ⟨.plain path, List.mem_filter.mpr ⟨hmem, decide_eq_true hpath⟩, rfl⟩

/-- A path is in the tree if it and its ancestors are stored under their ids. -/
theorem inTree_id_iff (path : TreePath) :
    InTree .treeRoot documents path.id ↔
      ∀ ancestor, ancestor ≠ ⊥ → ancestor ≤ path → ancestor ∈ plainPaths stored := by
  -- From a path the only way on is to its parent, if the path is stored at all.
  induction path using TreePath.parent_induction with
  | root =>
    rw [TreePath.id_bot]
    exact iff_of_true .root fun ancestor hne hle ↦ absurd (le_bot_iff.mp hle) hne
  | child path hpath ih =>
    have hroot : path.id ≠ .treeRoot := TreePath.id_eq_treeRoot_iff.not.mpr hpath
    rw [InTree, connected_iff, or_iff_right hroot]
    simp only [refers_id_iff hstored hpath, TreePath.le_iff hpath]
    constructor
    · rintro ⟨_, ⟨hmem, rfl⟩, hparent⟩ ancestor hne (rfl | hle)
      · exact hmem
      · exact ih.mp hparent ancestor hne hle
    · intro hall
      refine ⟨path.parent.id, ⟨hall path hpath (.inl rfl), rfl⟩, ih.mpr fun ancestor hne hle ↦ ?_⟩
      exact hall ancestor hne (.inr hle)

theorem cutOff_iff : CutOff (plainPaths stored) path ↔
    path ≠ ⊥ ∧ ¬ InTree .treeRoot documents path.parent.id := by
  rw [inTree_id_iff hstored]
  push Not
  constructor
  · rintro ⟨ancestor, hne, hlt, hmem⟩
    have hpath : path ≠ ⊥ := ne_bot_of_gt hlt
    exact ⟨hpath, ancestor, hne, (TreePath.lt_iff hpath).mp hlt, hmem⟩
  · rintro ⟨hpath, ancestor, hne, hle, hmem⟩
    exact ⟨ancestor, hne, (TreePath.lt_iff hpath).mpr hle, hmem⟩

open scoped Classical in
/-- The dangling references are those of the nodes that are cut off. -/
theorem dangling_eq : dangling .treeRoot documents =
    (stored.filter fun node ↦ CutOff (plainPaths stored) node.path).map referenceOf := by
  rw [dangling, references_eq hstored, List.filter_map, List.filter_filter]
  congr 2
  funext node
  rw [Bool.eq_iff_iff]
  rw [Bool.and_eq_true, decide_eq_true_eq, decide_eq_true_eq, cutOff_iff hstored, and_comm]
  exact and_congr_right' decide_eq_true_iff

theorem diagnosis_eq {node : StoredNode} (hcut : CutOff (plainPaths stored) node.path) :
    diagnosis (∃ document ∈ live .treeRoot documents, document.id = node.path.parent.id)
      (referenceOf node) = cutOffFinding (plainPaths stored) node := by
  obtain ⟨hpath, hout⟩ := (cutOff_iff hstored).mp hcut
  have hparent : node.path.parent ≠ ⊥ := by
    intro hbot
    rw [hbot, TreePath.id_bot] at hout
    exact hout .root
  exact diagnosis_congr (exists_live_id_iff hstored hparent) _

open scoped Classical in
/-- The orphans are the nodes that are cut off. Each is reported once. -/
theorem examine_stored (staff : Staff) {outlet : Outlet} (hopen : outlet.room = none) :
    ∃ orphans : List StoredNode,
      orphans.Perm (stored.filter fun node ↦ CutOff (plainPaths stored) node.path) ∧
        let examined := examine .treeRoot false staff documents outlet
        examined.failure = none ∧
          examined.outlet.sent = outlet.sent ++
            (cutOffReport (plainPaths stored) orphans stored.length).toArray := by
  let cut := stored.filter fun node ↦ CutOff (plainPaths stored) node.path
  let orphans := cut.mergeSort fun a b ↦ Unresolved.le (referenceOf a) (referenceOf b)
  have horphans : orphans.Perm cut := List.mergeSort_perm _ _
  have hlisted : (report .treeRoot documents).listed = orphans.map referenceOf := by
    rw [List.map_mergeSort (s := Unresolved.le) fun _ _ _ _ ↦ rfl]
    exact congrArg (List.mergeSort · Unresolved.le) (dangling_eq hstored)
  have hbare : (report .treeRoot documents).bare = [] :=
    List.Perm.eq_nil (parentless_eq_nil hstored ▸ (report .treeRoot documents).bare_perm)
  have hnotices : notices .treeRoot documents = [] := by
    rw [notices, parentless_eq_nil hstored, List.map_nil]
  have hfindings : (orphans.map referenceOf).map
        (fun reference ↦ Entry.finding (diagnosis (∃ document ∈ live .treeRoot documents,
          document.id = reference.parent) reference)) =
      orphans.map fun node ↦ .finding (cutOffFinding (plainPaths stored) node) := by
    rw [List.map_map]
    refine List.map_congr_left fun node hmem ↦ congrArg Entry.finding ?_
    have hcut := (List.mem_filter.mp (horphans.mem_iff.mp hmem)).2
    exact diagnosis_eq hstored (of_decide_eq_true hcut)
  obtain ⟨hfailure, hsent⟩ := examine_of_open .treeRoot false staff documents hopen
  refine ⟨orphans, horphans, hfailure, ?_⟩
  rw [hsent, hnotices, verdict_entered accurate_edges_of_not_trust, OrphanReport.entries, hlisted,
    hbare, hfindings, nodes_eq_length hstored, List.length_map]
  rfl

end Stored

section Paths

theorem map_plain_plainPaths (hplain : ∀ node ∈ stored, ∃ path, node = .plain path) :
    (plainPaths stored).map .plain = stored := by
  induction stored with
  | nil => rfl
  | cons node stored ih =>
    obtain ⟨⟨path, rfl⟩, hrest⟩ := List.forall_mem_cons.mp hplain
    exact congrArg (StoredNode.plain path :: ·) (ih hrest)

theorem holds_map_plain (order : List TreePath) :
    List.Forall₂ StoredNode.Holds (order.map .plain) (order.map fun path ↦ .ofId path.id) := by
  rw [List.forall₂_map_left_iff, List.forall₂_map_right_iff, List.forall₂_same]
  exact fun path _ ↦ StoredNode.holds_ofId path

/-- Of the nodes at different paths, in any order, those are reported that have an ancestor
other than the root that is not among them, each once. A tree that is whole has no orphans, and if
one path is taken out of it, the orphans are the paths below. -/
theorem examine_paths (staff : Staff) {order : List TreePath} (hnodup : order.Nodup)
    {outlet : Outlet} (hopen : outlet.room = none) :
    ∃ orphans : List TreePath,
      let examined := examine .treeRoot false staff (order.map fun path ↦ .ofId path.id) outlet
      examined.failure = none ∧
        examined.outlet.sent = outlet.sent ++
          (cutOffReport order (orphans.map .plain) order.length).toArray ∧
        orphans.Nodup ∧
        (∀ path, path ∈ orphans ↔ path ∈ order ∧ CutOff order path) ∧
        (IsLowerSet {path | path ∈ order} → orphans = []) ∧
        ∀ (whole : Set TreePath) (cut : TreePath), IsLowerSet whole → cut ∈ whole → cut ≠ ⊥ →
          {path | path ∈ order} = whole \ {cut} →
            ∀ path, path ∈ orphans ↔ path ∈ whole ∧ cut < path := by
  classical
  obtain ⟨found, hfound, hexamined⟩ := examine_stored (holds_map_plain order) staff hopen
  rw [plainPaths_map_plain, List.length_map] at hexamined
  rw [plainPaths_map_plain, List.filter_map] at hfound
  have hplain : (plainPaths found).map .plain = found := by
    refine map_plain_plainPaths fun node hnode ↦ ?_
    obtain ⟨path, -, rfl⟩ := List.mem_map.mp (hfound.mem_iff.mp hnode)
    exact ⟨path, rfl⟩
  have horphans : (plainPaths found).Perm (order.filter fun path ↦ CutOff order path) := by
    have hperm := plainPaths_perm hfound
    rwa [plainPaths_map_plain] at hperm
  have hmem (path : TreePath) : path ∈ plainPaths found ↔ path ∈ order ∧ CutOff order path := by
    rw [horphans.mem_iff, List.mem_filter, decide_eq_true_eq]
  refine ⟨plainPaths found, hexamined.1, ?_, horphans.nodup_iff.mpr (hnodup.filter _), hmem,
    ?_, ?_⟩
  · rw [hplain]
    exact hexamined.2
  · intro hlower
    refine List.eq_nil_iff_forall_not_mem.mpr fun path hpath ↦ ?_
    obtain ⟨hin, ancestor, -, hlt, hout⟩ := (hmem path).mp hpath
    exact hout (hlower hlt.le hin)
  · intro whole cut hlower hcut hne horder path
    have hiff (other : TreePath) : other ∈ order ↔ other ∈ whole ∧ other ≠ cut :=
      Set.ext_iff.mp horder other
    rw [hmem, hiff]
    constructor
    · rintro ⟨⟨hwhole, -⟩, ancestor, -, hlt, hout⟩
      obtain rfl : ancestor = cut := by
        by_contra hother
        exact hout ((hiff ancestor).mpr ⟨hlower hlt.le hwhole, hother⟩)
      exact ⟨hwhole, hlt⟩
    · rintro ⟨hwhole, hlt⟩
      exact ⟨⟨hwhole, hlt.ne'⟩, cut, hne, hlt, fun hin ↦ ((hiff cut).mp hin).2 rfl⟩

/-- The path `/a/x`, one below it, and one apart from them. -/
def severed : List TreePath :=
  [⟨[['a'], ['x'], ['y']], by decide, by decide, by decide⟩,
    ⟨[['a'], ['x']], by decide, by decide, by decide⟩, ⟨[['b']], by decide, by decide, by decide⟩]

theorem examine_paths_severed :
    severed.Nodup ∧ Outlet.unbounded.room = none ∧
      .finding ⟨"orphan", .corruption, some ⟨"2:/a/x"⟩, some ⟨"1:/a"⟩,
          "orphaned node: missing parent 1:/a"⟩ ∈
        (examine .treeRoot false { workers := 2 } (severed.map fun path ↦ .ofId path.id)
          .unbounded).outlet.sent := by
  have hnodup : severed.Nodup := by decide
  have hopen : Outlet.unbounded.room = none := rfl
  obtain ⟨orphans, -, hsent, -, hmem, -⟩ := examine_paths { workers := 2 } hnodup hopen
  let cut : TreePath := ⟨[['a'], ['x']], by decide, by decide, by decide⟩
  have hcut : cut ∈ orphans := by
    refine (hmem cut).mpr ⟨by decide, ⟨[['a']], by decide, by decide, by decide⟩, ?_⟩
    decide
  refine ⟨hnodup, hopen, ?_⟩
  rw [hsent, Array.mem_append]
  refine .inr (List.mem_toArray.mpr (List.mem_append.mpr (.inl ?_)))
  refine List.mem_map.mpr ⟨.plain cut, List.mem_map.mpr ⟨cut, hcut, rfl⟩, ?_⟩
  decide

end Paths

end TreeAudit.Check.Orphan
