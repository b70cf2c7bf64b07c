import TreeAudit.Proofs.Check.OrphanRun
import Mathlib.Data.Multiset.Filter

/-!
What the orphan check reports at its end, told from the documents alone. The tree is the
least set of ids that holds the root and the id of every live node whose parent is in it
(`InTree`). A report lists the references to parents outside the tree in order, then the
nodes without a parent (`OrphanReport`). If no edge that is not to be retained is named as
a parent, the verdict of the check is that report (`verdict_entered`), which the order of
the documents does not change (`OrphanReport.entries_eq_of_perm`).
-/

set_option autoImplicit false
set_option relaxedAutoImplicit false

namespace TreeAudit.Check.Orphan

open Report Reachability

/-- A live node with this id refers to this parent. -/
def Refers (root : DocumentId) (documents : List Document) (id parent : DocumentId) : Prop :=
  ∃ document ∈ live root documents, document.id = id ∧ document.parent = some parent

/-- The ids that hang off the root by the references of live nodes. -/
abbrev InTree (root : DocumentId) (documents : List Document) : DocumentId → Prop :=
  Connected root (Refers root documents)

/-- Every reference of a live node, as id and parent. -/
def references (root : DocumentId) (documents : List Document) : List Unresolved :=
  (live root documents).filterMap fun document ↦ document.parent.map (Unresolved.mk document.id)

open scoped Classical in
/-- The references to parents outside the tree. -/
noncomputable def dangling (root : DocumentId) (documents : List Document) : List Unresolved :=
  (references root documents).filter fun reference ↦ ¬ InTree root documents reference.parent

/-- The dangling references and the nodes without a parent, each in the order of bytes. -/
structure OrphanReport (root : DocumentId) (documents : List Document) where
  listed : List Unresolved
  bare : List DocumentId
  listed_perm : listed.Perm (dangling root documents)
  listed_sorted : listed.Pairwise Unresolved.Before
  bare_perm : bare.Perm (parentless root documents)
  bare_sorted : bare.Pairwise fun a b ↦ a.bytes ≤ b.bytes

/-- One finding for each, and a status line that counts them. -/
def OrphanReport.entries {root : DocumentId} {documents : List Document}
    (report : OrphanReport root documents) : List Entry :=
  (report.listed.map fun reference ↦ .finding (diagnosis
      (∃ document ∈ live root documents, document.id = reference.parent) reference)) ++
    ((report.bare.map fun id ↦ .finding (bareDiagnosis id)) ++
      [.status (tally (report.listed.length + report.bare.length) (nodes documents))])

variable {root : DocumentId} {trustFlags : Bool} {staff : Staff} {documents : List Document}

theorem mem_references {reference : Unresolved} :
    reference ∈ references root documents ↔
      Refers root documents reference.id reference.parent := by
  simp only [references, Refers, List.mem_filterMap, Option.map_eq_some_iff]
  constructor
  · rintro ⟨document, hmem, parent, hparent, rfl⟩
    exact ⟨document, hmem, rfl, hparent⟩
  · rintro ⟨document, hmem, hid, hparent⟩
    exact ⟨document, hmem, reference.parent, hparent, by rw [hid]⟩

theorem mem_dangling {reference : Unresolved} :
    reference ∈ dangling root documents ↔
      Refers root documents reference.id reference.parent ∧
        ¬ InTree root documents reference.parent := by
  simp only [dangling, List.mem_filter, mem_references, decide_eq_true_eq]

/-- A live node outside the tree has no parent or dangles. -/
theorem exists_live_iff {id : DocumentId} (hid : ¬ InTree root documents id) :
    (∃ document ∈ live root documents, document.id = id) ↔
      (∃ reference ∈ dangling root documents, reference.id = id) ∨
        id ∈ parentless root documents := by
  rw [mem_parentless]
  constructor
  · rintro ⟨document, hmem, rfl⟩
    cases hparent : document.parent with
    | none => exact .inr ⟨document, hmem, rfl, hparent⟩
    | some parent =>
      have hrefers : Refers root documents document.id parent := ⟨document, hmem, rfl, hparent⟩
      refine .inl ⟨⟨document.id, parent⟩, mem_dangling.mpr ⟨hrefers, fun hin ↦ ?_⟩, rfl⟩
      exact hid (.child hrefers hin)
  · rintro (⟨reference, hmem, rfl⟩ | ⟨document, hmem, heq, -⟩)
    · obtain ⟨⟨document, hlive, heq, -⟩, -⟩ := mem_dangling.mp hmem
      exact ⟨document, hlive, heq⟩
    · exact ⟨document, hmem, heq⟩

/-- What no live node ties to a parent is outside the tree. -/
theorem not_inTree {id : DocumentId} (hid : id ≠ root)
    (hnone : ∀ document ∈ live root documents, document.id = id → document.parent = none) :
    ¬ InTree root documents id := by
  intro hin
  rcases connected_iff.mp hin with hroot | ⟨parent, ⟨document, hlive, hsame, hparent⟩, -⟩
  · exact hid hroot
  · exact Option.some_ne_none parent (hparent.symm.trans (hnone document hlive hsame))

theorem byText_iff (a b : DocumentId) : byText a b = true ↔ a.text ≤ b.text := by
  rw [byText, decide_eq_true_eq]

/-- The report, put together by sorting. -/
noncomputable def report (root : DocumentId) (documents : List Document) :
    OrphanReport root documents where
  listed := (dangling root documents).mergeSort Unresolved.le
  bare := (parentless root documents).mergeSort byText
  listed_perm := List.mergeSort_perm _ _
  listed_sorted := Unresolved.pairwise_listing _
  bare_perm := List.mergeSort_perm _ _
  bare_sorted :=
    (pairwise_mergeSort_of_key byText_iff _).imp fun {_ _} h ↦ DocumentId.bytes_le_iff.mpr h

section Edges

theorem map_unresolved_edges (root : DocumentId) (trustFlags : Bool) (documents : List Document) :
    (edges root trustFlags documents).map Edge.unresolved = references root documents := by
  simp only [edges, references, List.map_filterMap, Option.map_map]
  rfl

theorem names_edges (id parent : DocumentId) :
    Names (edges root trustFlags documents) id parent ↔ Refers root documents id parent := by
  refine Iff.trans ?_ (@mem_references root documents ⟨id, parent⟩)
  rw [← map_unresolved_edges root trustFlags, List.mem_map]
  simp only [Names, Multiset.mem_coe, Edge.unresolved, Unresolved.mk.injEq]

theorem connected_names_edges :
    Connected root (Names (edges root trustFlags documents)) = InTree root documents := by
  have hnames : Names (edges root trustFlags documents) = Refers root documents := by
    funext id parent
    exact propext (names_edges id parent)
  rw [hnames]

theorem map_unresolved_detached (root : DocumentId) (trustFlags : Bool)
    (documents : List Document) :
    (detached root (edges root trustFlags documents)).map Edge.unresolved =
      (dangling root documents : Multiset Unresolved) := by
  rw [detached, connected_names_edges, Multiset.filter_coe, Multiset.map_coe, dangling,
    ← map_unresolved_edges root trustFlags, List.filter_map]
  rfl

variable (haccurate : Accurate (edges root trustFlags documents))

include haccurate

/-- What is left parked at the end are the dangling references. -/
theorem drain_entered :
    (entered root trustFlags staff documents).settled.drain.1 =
      (dangling root documents).mergeSort Unresolved.le := by
  obtain ⟨whole, handed, hsplits, hledger⟩ :=
    Crew.exists_whole_join staff root (edges root trustFlags documents)
  rw [settled, entered, hsplits.drain_eq]
  refine Unresolved.listing_eq_of_perm (Multiset.coe_eq_coe.mp ?_)
  rw [← map_unresolved_detached root trustFlags, ← hledger.edges_eq_detached haccurate]
  exact Shard.coe_unresolved _

/-- The verdict of the check is the report on its documents. -/
theorem verdict_entered :
    verdict (entered root trustFlags staff documents) = (report root documents).entries := by
  have hbare : (entered root trustFlags staff documents).malformed.mergeSort byText =
      (report root documents).bare :=
    mergeSort_eq_of_perm byText_iff DocumentId.text_injective (List.reverse_perm _)
  have hlisted : (entered root trustFlags staff documents).settled.drain.1 =
      (report root documents).listed := drain_entered haccurate
  have hfinding : ∀ reference ∈ (report root documents).listed,
      diagnosis (reference.parent ∈ Std.HashSet.ofList
          ((report root documents).listed.map Unresolved.id ++ (report root documents).bare))
        reference =
      diagnosis (∃ document ∈ live root documents, document.id = reference.parent) reference := by
    intro reference hmem
    have hdangling : reference ∈ dangling root documents :=
      (report root documents).listed_perm.mem_iff.mp hmem
    refine diagnosis_congr ?_ reference
    rw [exists_live_iff (mem_dangling.mp hdangling).2, Std.HashSet.mem_ofList,
      List.contains_iff_mem, List.mem_append, List.mem_map,
      (report root documents).bare_perm.mem_iff]
    simp only [(report root documents).listed_perm.mem_iff]
  have hfindings := List.map_congr_left fun reference hmem ↦
    congrArg Entry.finding (hfinding reference hmem)
  simp only [verdict, hbare, hlisted]
  rw [hfindings]
  rfl

end Edges

/-- Where every reference leads into the tree, there is nothing to report but that. -/
theorem verdict_of_inTree
    (hin : ∀ reference ∈ references root documents, InTree root documents reference.parent)
    (hparents : parentless root documents = [])
    (haccurate : Accurate (edges root trustFlags documents)) :
    verdict (entered root trustFlags staff documents) =
      [.status (tally 0 (nodes documents))] := by
  have hnone : dangling root documents = [] :=
    List.filter_eq_nil_iff.mpr fun reference hmem ↦ by simpa using hin reference hmem
  have hlisted : (report root documents).listed = [] :=
    List.Perm.eq_nil (hnone ▸ (report root documents).listed_perm)
  have hbare : (report root documents).bare = [] :=
    List.Perm.eq_nil (hparents ▸ (report root documents).bare_perm)
  rw [verdict_entered haccurate, OrphanReport.entries, hlisted, hbare]
  rfl

section Order

variable {order : List Document} (horder : order.Perm documents)

include horder

theorem live_perm : (live root order).Perm (live root documents) := horder.filter _

theorem inTree_perm : InTree root order = InTree root documents := by
  have hrefers : Refers root order = Refers root documents := by
    funext id parent
    simp only [Refers, (live_perm horder).mem_iff]
  rw [InTree, hrefers]

theorem dangling_perm : (dangling root order).Perm (dangling root documents) := by
  rw [dangling, dangling, inTree_perm horder]
  exact ((live_perm horder).filterMap _).filter _

theorem parentless_perm : (parentless root order).Perm (parentless root documents) :=
  ((live_perm horder).filter _).map _

/-- A report is determined by the documents, and their order does not show in it. -/
theorem OrphanReport.entries_eq_of_perm (first : OrphanReport root order)
    (second : OrphanReport root documents) : first.entries = second.entries := by
  have hlisted : first.listed = second.listed := by
    refine List.Perm.eq_of_pairwise (fun _ _ _ _ hab hba ↦ hab.antisymm hba) first.listed_sorted
      second.listed_sorted ?_
    exact first.listed_perm.trans ((dangling_perm horder).trans second.listed_perm.symm)
  have hbare : first.bare = second.bare := by
    refine List.Perm.eq_of_pairwise (fun _ _ _ _ hab hba ↦ DocumentId.eq_of_bytes_le hab hba)
      first.bare_sorted second.bare_sorted ?_
    exact first.bare_perm.trans ((parentless_perm horder).trans second.bare_perm.symm)
  have hnodes : nodes order = nodes documents := horder.countP_eq _
  simp only [entries, hlisted, hbare, hnodes, (live_perm horder).mem_iff]

end Order

theorem accurate_edges_of_not_trust : Accurate (edges root false documents) := by
  refine Ledger.accurate_of_retain fun edge hmem ↦ ?_
  obtain ⟨document, -, -, -, hretain⟩ := mem_edges.mp (Multiset.mem_coe.mp hmem)
  rw [hretain, Bool.not_false, Bool.true_or]

/-- Documents in any order, given to a check that trusts no flags and whose receiver stays,
are processed without a failure, and the end adds one report on them, the same for every
order, by however many workers and in whatever turns their edges are entered. -/
theorem finish_reports (root : DocumentId) (documents : List Document) :
    ∃ report : OrphanReport root documents,
      ∀ (staff : Staff) (order : List Document) (outlet : Outlet), order.Perm documents →
        outlet.room = none →
          let processed := processAll order (start root false staff) outlet
          let finished := finish processed.state processed.outlet
          processed.failure = none ∧ finished.failure = none ∧
            finished.outlet.sent = processed.outlet.sent ++ report.entries.toArray := by
  refine ⟨report root documents, fun staff order outlet horder hopen ↦ ?_⟩
  rw [processAll_of_open root false staff order hopen]
  obtain ⟨final, hfinish, -⟩ := finish_eq (entered root false staff order)
    ⟨outlet.sent ++ (notices root order).toArray, none⟩
  dsimp only
  rw [hfinish, Answer.sending_of_open _ rfl, verdict_entered accurate_edges_of_not_trust,
    OrphanReport.entries_eq_of_perm horder _ (report root documents)]
  exact ⟨rfl, rfl, rfl⟩

/-- A node below one that has no parent itself, and a node below a tombstone. -/
def strays : List Document :=
  [⟨⟨"stray"⟩, none, .node, true⟩, ⟨⟨"stray/kid"⟩, some ⟨"stray"⟩, .node, true⟩,
    ⟨⟨"1:/a"⟩, some ⟨"0:/"⟩, .deleted, true⟩, ⟨⟨"2:/a/x"⟩, some ⟨"1:/a"⟩, .node, true⟩]

theorem dangling_strays :
    dangling ⟨"0:/"⟩ strays = [⟨⟨"stray/kid"⟩, ⟨"stray"⟩⟩, ⟨⟨"2:/a/x"⟩, ⟨"1:/a"⟩⟩] := by
  have hdangling : ∀ reference ∈ references ⟨"0:/"⟩ strays,
      ¬ InTree ⟨"0:/"⟩ strays reference.parent := by
    intro reference hmem
    have hparent : reference.parent = ⟨"stray"⟩ ∨ reference.parent = ⟨"1:/a"⟩ := by
      revert reference
      decide
    rcases hparent with hparent | hparent
    · rw [hparent]
      exact not_inTree (by decide) (by decide)
    · rw [hparent]
      exact not_inTree (by decide) (by decide)
  have hall : dangling ⟨"0:/"⟩ strays = references ⟨"0:/"⟩ strays :=
    List.filter_eq_self.mpr fun reference hmem ↦ by
      simpa only [decide_eq_true_eq] using hdangling reference hmem
  rw [hall]
  rfl

theorem finish_reports_strays :
    strays.reverse.Perm strays ∧ Outlet.unbounded.room = none ∧
      let processed := processAll strays.reverse (start ⟨"0:/"⟩ false { workers := 3 }) .unbounded
      (finish processed.state processed.outlet).outlet.sent.toList =
        [.finding ⟨"orphan", .error, some ⟨"stray"⟩, none,
            "malformed document: missing parent reference"⟩,
          .finding ⟨"orphan", .corruption, some ⟨"2:/a/x"⟩, some ⟨"1:/a"⟩,
            "orphaned node: missing parent 1:/a"⟩,
          .finding ⟨"orphan", .corruption, some ⟨"stray/kid"⟩, some ⟨"stray"⟩,
            "orphaned node: ancestor stray is not reachable"⟩,
          .finding ⟨"orphan", .corruption, some ⟨"stray"⟩, none,
            "orphaned node: no parent reference"⟩,
          .status "orphan check orphans=3 examined=3"] := by
  obtain ⟨report, hreport⟩ := finish_reports ⟨"0:/"⟩ strays
  obtain ⟨-, -, hsent⟩ :=
    hreport { workers := 3 } strays.reverse .unbounded (List.reverse_perm _) rfl
  refine ⟨List.reverse_perm _, rfl, ?_⟩
  have hlisted : report.listed = [⟨⟨"2:/a/x"⟩, ⟨"1:/a"⟩⟩, ⟨⟨"stray/kid"⟩, ⟨"stray"⟩⟩] := by
    refine List.Perm.eq_of_pairwise (fun _ _ _ _ hab hba ↦ hab.antisymm hba) report.listed_sorted
      (List.pairwise_pair.mpr (.inl (DocumentId.bytes_lt_iff.mpr (by decide))))
      (report.listed_perm.trans ?_)
    rw [dangling_strays]
    decide
  have hbare : report.bare = [⟨"stray"⟩] := List.perm_singleton.mp report.bare_perm
  dsimp only
  rw [hsent, processAll_of_open _ _ _ _ rfl, OrphanReport.entries, hlisted, hbare]
  decide

end TreeAudit.Check.Orphan
