import TreeAudit.Proofs.Check.OrphanReport
import TreeAudit.Proofs.Reachability.Turns

/-!
Trusting children flags that may be wrong. A node that is said to have no children can be
forgotten before its children come, so the check may report more than there is to report.
It never reports less: a dangling reference is parked when it arrives and nothing ever
takes it out (`dangling_le_unresolved`), and no id is held that does not hang off the root.
Neither depends on the order of the documents, nor on how workers take turns. What the check reports
beyond that does: two workers report a leaf below a folder that is said to have none, or do not
(`verdict_hiddenLeaf`).
-/

set_option autoImplicit false
set_option relaxedAutoImplicit false

namespace TreeAudit.Check.Orphan

open Report Reachability

/-- The id and the parent that a finding of corruption names. -/
def corruption? : Entry → Option (Option DocumentId × Option DocumentId)
  | .finding finding =>
    if finding.severity = .corruption then some (finding.id, finding.parent) else none
  | _ => none

/-- The ids and parents that findings of corruption name, each as often as it is reported. -/
def corruptions (entries : List Entry) : Multiset (Option DocumentId × Option DocumentId) :=
  (entries.filterMap corruption? : List (Option DocumentId × Option DocumentId))

/-- The id and the parent named by the finding for an unresolved reference. -/
def named (reference : Unresolved) : Option DocumentId × Option DocumentId :=
  (some reference.id, some reference.parent)

/-- The same for a node without a parent. -/
def namedAlone (id : DocumentId) : Option DocumentId × Option DocumentId := (some id, none)

variable {root : DocumentId} {trustFlags : Bool} {documents : List Document}

@[simp] theorem corruptions_append (first second : List Entry) :
    corruptions (first ++ second) = corruptions first + corruptions second := by
  rw [corruptions, List.filterMap_append, ← Multiset.coe_add, corruptions, corruptions]

/-- That a node has no parent is no corruption as long as documents are coming in. -/
@[simp] theorem corruptions_notices (root : DocumentId) (documents : List Document) :
    corruptions (notices root documents) = 0 := by
  rw [corruptions, Multiset.coe_eq_zero, List.filterMap_eq_nil_iff]
  intro entry hentry
  obtain ⟨id, -, rfl⟩ := List.mem_map.mp hentry
  rfl

/-- The verdict names what is left parked, and the nodes without a parent. -/
theorem corruptions_verdict (orphan : Orphan) :
    corruptions (verdict orphan) =
      (orphan.settled.drain.1 : Multiset Unresolved).map named +
        (orphan.malformed : Multiset DocumentId).map namedAlone := by
  have hlisted (orphans : Std.HashSet DocumentId) (listed : List Unresolved) :
      corruptions (listed.map fun reference ↦
          .finding (diagnosis (reference.parent ∈ orphans) reference)) =
        (listed.map named : List _) := by
    rw [corruptions, List.filterMap_map, ← List.filterMap_eq_map]
    rfl
  have hbare (ids : List DocumentId) :
      corruptions (ids.map fun id ↦ .finding (bareDiagnosis id)) =
        (ids.map namedAlone : List _) := by
    rw [corruptions, List.filterMap_map, ← List.filterMap_eq_map]
    rfl
  have hstatus (text : String) : corruptions [.status text] = 0 := rfl
  have hsorted : (orphan.malformed.mergeSort byText : Multiset DocumentId) = orphan.malformed :=
    Multiset.coe_eq_coe.mpr (List.mergeSort_perm _ _)
  dsimp only [verdict]
  rw [corruptions_append, corruptions_append, hlisted, hbare, hstatus, add_zero,
    ← Multiset.map_coe, ← Multiset.map_coe, hsorted]

/-- While the receiver stays, a run names what is left parked and the nodes without a
parent. -/
theorem corruptions_examine (root : DocumentId) (trustFlags : Bool) (staff : Staff)
    (documents : List Document) {outlet : Outlet} (hopen : outlet.room = none) :
    corruptions (examine root trustFlags staff documents outlet).outlet.sent.toList =
      corruptions outlet.sent.toList +
        (((entered root trustFlags staff documents).settled.drain.1 :
            Multiset Unresolved).map named +
          (parentless root documents : Multiset DocumentId).map namedAlone) := by
  have hmalformed : ((entered root trustFlags staff documents).malformed : Multiset DocumentId) =
      parentless root documents := Multiset.coe_eq_coe.mpr (List.reverse_perm _)
  rw [(examine_of_open root trustFlags staff documents hopen).2, Array.toList_append,
    List.toList_toArray, corruptions_append, corruptions_append, corruptions_notices, zero_add,
    corruptions_verdict, hmalformed]

/-- The dangling references are parked at every moment. -/
theorem dangling_le_unresolved {handed : Multiset Edge} {work : Multiset Child} {shard : Shard}
    (h : Ledger root (edges root trustFlags documents) handed work shard) :
    (dangling root documents : Multiset Unresolved) ≤ shard.unresolved := by
  rw [Shard.coe_unresolved, ← map_unresolved_detached root trustFlags]
  exact Multiset.map_le_map h.detached_le_edges

/-- Workers hold at no moment an id that does not hang off the root by the references of the
documents given so far. -/
theorem inTree_of_isReachable {staff : Staff} {met : List Document} {id : DocumentId}
    (hid : (entered root trustFlags staff met).crew.index.isReachable id = true) :
    InTree root met id := by
  obtain ⟨whole, taken, handed, hsplits, hedges, hledger⟩ :=
    (Pool.balanced_start _ _ _ _ _).run (Crew.run_sent staff root (edges root trustFlags met))
  have hconnected := hledger.connected_of_reachable ((hsplits.isReachable_iff id).mp hid)
  rw [← @connected_names_edges root trustFlags met]
  refine hconnected.mono fun id parent hnames ↦ ?_
  obtain ⟨edge, hmem, hedge⟩ := hnames
  refine ⟨edge, ?_, hedge⟩
  rw [hedges]
  exact Multiset.mem_add.mpr (.inl hmem)

/-- Whatever the flags say and in whatever order the documents come, a check that trusts
the flags names at least what one that does not trust them names, whoever works for the one and
the other, and after any documents holds only ids that hang off the root by the references in
them. The same is true of workers that take any turns: they hold at no moment an id that does not
hang off the root by the edges taken so far, and at the end all dangling references are among those
they list. -/
theorem corruptions_le_of_trust (root : DocumentId) {documents order : List Document}
    (horder : order.Perm documents) {outlet : Outlet} (hopen : outlet.room = none)
    (staff staff' : Staff) :
    corruptions (examine root false staff documents outlet).outlet.sent.toList ≤
        corruptions (examine root true staff' order outlet).outlet.sent.toList ∧
      (∀ met id, (processAll met (start root true staff') outlet).state.crew.index.isReachable id =
          true → InTree root met id) ∧
      ∀ (n : ℕ) (hash : DocumentId → UInt64) (count : ℕ) (pool : Pool n),
        Pool.Run (Pool.start n hash count root (edges root true order)) pool →
          (∃ taken, (edges root true order : Multiset Edge) = taken + pool.channel ∧
            ∀ id ∈ pool.index.held, Connected root (Names taken) id) ∧
          (pool.Settled →
            (dangling root documents : Multiset Unresolved) ≤ pool.index.drain.1) := by
  have hdangling : (dangling root documents : Multiset Unresolved) = dangling root order :=
    Multiset.coe_eq_coe.mpr (dangling_perm horder).symm
  have hparentless : (parentless root documents : Multiset DocumentId) = parentless root order :=
    Multiset.coe_eq_coe.mpr (parentless_perm horder).symm
  have hlisted {n : ℕ} {hash : DocumentId → UInt64} {count : ℕ} {pool : Pool n}
      (hrun : Pool.Run (Pool.start n hash count root (edges root true order)) pool)
      (hsettled : pool.Settled) :
      (dangling root order : Multiset Unresolved) ≤ pool.index.drain.1 := by
    obtain ⟨whole, handed, hsplits, hledger⟩ := Pool.exists_whole hrun hsettled
    rw [hsplits.drain_eq, Multiset.coe_eq_coe.mpr (List.mergeSort_perm _ _)]
    exact dangling_le_unresolved hledger
  refine ⟨?_, fun met id hid ↦ ?_, fun n hash count pool hrun ↦ ⟨?_, fun hsettled ↦ ?_⟩⟩
  · have hplain : ((entered root false staff documents).settled.drain.1 : Multiset Unresolved) =
        dangling root order := by
      rw [drain_entered accurate_edges_of_not_trust, ← hdangling]
      exact Multiset.coe_eq_coe.mpr (List.mergeSort_perm _ _)
    have htrusting : (dangling root order : Multiset Unresolved) ≤
        (entered root true staff' order).settled.drain.1 :=
      hlisted (Crew.run_join staff' root _) (Crew.settled_join staff' _)
    rw [corruptions_examine root false staff documents hopen,
      corruptions_examine root true staff' order hopen, hplain, hparentless]
    exact add_le_add_right (add_le_add_left (Multiset.map_le_map htrusting) _) _
  · rw [processAll_of_open root true staff' met hopen] at hid
    exact inTree_of_isReachable hid
  · exact Pool.connected_of_held hrun
  · rw [hdangling]
    exact hlisted hrun hsettled

/-- A node with a child that is said to have none and comes first, and a node whose parent
never comes. -/
def mislabelled : List Document :=
  [⟨⟨"1:/a"⟩, some ⟨"0:/"⟩, .node, false⟩, ⟨⟨"2:/a/x"⟩, some ⟨"1:/a"⟩, .node, false⟩,
    ⟨⟨"2:/gone/y"⟩, some ⟨"1:/gone"⟩, .node, true⟩]

theorem corruptions_le_of_trust_mislabelled :
    mislabelled.reverse.Perm mislabelled ∧ Outlet.unbounded.room = none ∧
      (some ⟨"2:/gone/y"⟩, some ⟨"1:/gone"⟩) ∈
        corruptions (examine ⟨"0:/"⟩ true { workers := 3 } mislabelled.reverse
          .unbounded).outlet.sent.toList := by
  have hopen : Outlet.unbounded.room = none := rfl
  obtain ⟨hle, -⟩ :=
    corruptions_le_of_trust ⟨"0:/"⟩ (List.reverse_perm mislabelled) hopen {} { workers := 3 }
  refine ⟨List.reverse_perm _, hopen, Multiset.mem_of_le hle ?_⟩
  have hout : ¬ InTree ⟨"0:/"⟩ mislabelled ⟨"1:/gone"⟩ := not_inTree (by decide) (by decide)
  have hparked : (⟨⟨"2:/gone/y"⟩, ⟨"1:/gone"⟩⟩ : Unresolved) ∈
      (entered ⟨"0:/"⟩ false {} mislabelled).settled.drain.1 := by
    rw [drain_entered accurate_edges_of_not_trust, List.mem_mergeSort]
    exact mem_dangling.mpr
      ⟨⟨⟨⟨"2:/gone/y"⟩, some ⟨"1:/gone"⟩, .node, true⟩, by decide, rfl, rfl⟩, hout⟩
  have hnamed := Multiset.mem_map_of_mem named (Multiset.mem_coe.mpr hparked)
  rw [corruptions_examine _ _ _ _ hopen, Multiset.mem_add, Multiset.mem_add]
  exact .inr (.inl hnamed)

/-! ### Turns that show -/

/-- A folder that is said to have no children, and a leaf below it. -/
def hiddenLeaf (root folder leaf : DocumentId) : List Document :=
  [⟨folder, some root, .node, false⟩, ⟨leaf, some folder, .node, true⟩]

/-- The verdict of a check that has met no node without a parent. -/
theorem verdict_of_malformed_eq_nil {orphan : Orphan} (h : orphan.malformed = []) :
    verdict orphan =
      (orphan.settled.drain.1.map fun reference ↦ .finding (diagnosis (reference.parent ∈
        Std.HashSet.ofList (orphan.settled.drain.1.map Unresolved.id)) reference)) ++
        [.status (tally orphan.settled.drain.1.length orphan.examined)] := by
  rw [verdict, h, List.mergeSort_nil, List.append_nil]
  rfl

/-- What two workers report of these depends on their turns: the leaf, or nothing. -/
theorem verdict_hiddenLeaf {root folder leaf : DocumentId} (hfolder : folder ≠ root)
    (hleaf : leaf ≠ root) (hne : folder ≠ leaf) (room : ℕ) (hash : DocumentId → UInt64) :
    let prompt : Staff := ⟨2, room, ⟨hash, fun _ ↦ some 0⟩⟩
    let overtaking : Staff :=
      ⟨2, room, ⟨hash, fun moment ↦ [some 0, none, some 1, some 1].getD moment none⟩⟩
    verdict (entered root true prompt (hiddenLeaf root folder leaf)) =
        [.finding ⟨"orphan", .corruption, some leaf, some folder,
            "orphaned node: missing parent " ++ folder.text⟩,
          .status "orphan check orphans=1 examined=2"] ∧
      verdict (entered root true overtaking (hiddenLeaf root folder leaf)) =
        [.status "orphan check orphans=0 examined=2"] := by
  intro prompt overtaking
  have hlive : live root (hiddenLeaf root folder leaf) = hiddenLeaf root folder leaf :=
    List.filter_eq_self.mpr (by simp [hiddenLeaf, hfolder, hleaf])
  have hedges : edges root true (hiddenLeaf root folder leaf) =
      [⟨folder, root, false⟩, ⟨leaf, folder, true⟩] := by
    rw [edges, hlive]
    rfl
  have hbare (staff : Staff) :
      (entered root true staff (hiddenLeaf root folder leaf)).malformed = [] := by
    rw [entered, parentless, hlive]
    rfl
  constructor
  · have hdrain : (entered root true prompt (hiddenLeaf root folder leaf)).settled.drain.1 =
        [⟨leaf, folder⟩] := by
      rw [settled, entered, hedges]
      exact Crew.drain_join_prompt hfolder leaf room hash
    have hmet : folder ∉ Std.HashSet.ofList [leaf] := by simpa using hne.symm
    have htally : tally 1 2 = "orphan check orphans=1 examined=2" := by decide +kernel
    rw [verdict_of_malformed_eq_nil (hbare prompt), hdrain, List.map_singleton, diagnosis,
      List.map_singleton, if_neg hmet, List.length_singleton, ← htally]
    rfl
  · have hdrain : (entered root true overtaking (hiddenLeaf root folder leaf)).settled.drain.1 =
        [] := by
      rw [settled, entered, hedges]
      exact Crew.drain_join_overtaken hfolder leaf room hash
    have htally : tally 0 2 = "orphan check orphans=0 examined=2" := by decide +kernel
    rw [verdict_of_malformed_eq_nil (hbare overtaking), hdrain, List.length_nil, ← htally]
    rfl

end TreeAudit.Check.Orphan
