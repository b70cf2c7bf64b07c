import TreeAudit.Proofs.Reachability.Parked

/-!
What holds of a shard at every moment, between any two atomic operations of any number
of cascades under way. Every edge that has arrived is either parked or was handed out,
because its parent had been found reachable; the children still to be resolved belong
to edges handed out (`Ledger`). An arrival and the resolution of a child keep this, one
more edge having arrived or one child less being left (`Ledger.arrive`,
`Ledger.resolve`). So at every moment the edges whose parent is not connected to the
root are parked (`Ledger.detached_le_edges`). When no child is left, and no id that is
not to be retained is named as a parent, the shard is exact: parked are these edges
alone, and reachable are the root and the retained ids whose parent is connected
(`Ledger.edges_eq_detached`, `Ledger.mem_reachable_iff`).
-/

set_option autoImplicit false
set_option relaxedAutoImplicit false

namespace TreeAudit.Reachability

/-- The least set of ids that holds the root and every id that names a member of the set
as its parent. -/
inductive Connected (root : DocumentId) (names : DocumentId → DocumentId → Prop) :
    DocumentId → Prop
  | root : Connected root names root
  | child {id parent : DocumentId} :
      names id parent → Connected root names parent → Connected root names id

theorem connected_iff {root : DocumentId} {names : DocumentId → DocumentId → Prop}
    {id : DocumentId} : Connected root names id ↔
      id = root ∨ ∃ parent, names id parent ∧ Connected root names parent := by
  constructor
  · intro h
    cases h with
    | root => exact .inl rfl
    | child hnames hparent => exact .inr ⟨_, hnames, hparent⟩
  · rintro (rfl | ⟨parent, hnames, hparent⟩)
    · exact .root
    · exact .child hnames hparent

theorem Connected.mono {root : DocumentId} {names more : DocumentId → DocumentId → Prop}
    (hmore : ∀ id parent, names id parent → more id parent) {id : DocumentId}
    (h : Connected root names id) : Connected root more id := by
  induction h with
  | root => exact .root
  | child hnames _ ih => exact .child (hmore _ _ hnames) ih

/-- One of the edges has `id` as its child end and `parent` as its parent end. -/
def Names (edges : Multiset Edge) (id parent : DocumentId) : Prop :=
  ∃ edge ∈ edges, edge.id = id ∧ edge.parent = parent

theorem Names.mono {first second : Multiset Edge} (h : first ⊆ second) (id parent : DocumentId)
    (hnames : Names first id parent) : Names second id parent := by
  obtain ⟨edge, hmem, hid, hparent⟩ := hnames
  exact ⟨edge, h hmem, hid, hparent⟩

theorem Connected.of_mem {root : DocumentId} {edges : Multiset Edge} {edge : Edge}
    (hmem : edge ∈ edges) (h : Connected root (Names edges) edge.parent) :
    Connected root (Names edges) edge.id :=
  .child ⟨edge, hmem, rfl, rfl⟩ h

/-- Ids apart from the root that name only each other as parents are not connected. -/
theorem Connected.notMem {root : DocumentId} {edges : Multiset Edge} {id : DocumentId}
    (h : Connected root (Names edges) id) (apart : List DocumentId) (hroot : root ∉ apart)
    (happart : ∀ edge ∈ edges, edge.id ∈ apart → edge.parent ∈ apart) : id ∉ apart := by
  induction h with
  | root => exact hroot
  | child hnames _ ih =>
    obtain ⟨edge, hmem, rfl, rfl⟩ := hnames
    exact fun hid ↦ ih (happart edge hmem hid)

/-- Whenever an edge names an id as its parent, all edges of that id ask to be retained. -/
def Accurate (edges : Multiset Edge) : Prop :=
  ∀ edge ∈ edges, ∀ other ∈ edges, other.parent = edge.id → edge.retain = true

open scoped Classical in
/-- The edges whose parent is not connected to the root. -/
noncomputable def detached (root : DocumentId) (edges : Multiset Edge) : Multiset Edge :=
  edges.filter fun edge ↦ ¬ Connected root (Names edges) edge.parent

theorem mem_detached {root : DocumentId} {edges : Multiset Edge} {edge : Edge} :
    edge ∈ detached root edges ↔ edge ∈ edges ∧ ¬ Connected root (Names edges) edge.parent := by
  classical
  exact Multiset.mem_filter

/-- Why an id may be kept: it is the root, or the child end of an edge handed out that is to be
retained or has children itself. -/
def Warranted (root : DocumentId) (arrived handed : Multiset Edge) (id : DocumentId) : Prop :=
  id = root ∨ ∃ edge ∈ handed, edge.id = id ∧
    (edge.retain = true ∨ ∃ other ∈ arrived, other.parent = id)

theorem Warranted.mono {root : DocumentId} {arrived arrived' handed handed' : Multiset Edge}
    (harrived : arrived ⊆ arrived') (hhanded : handed ⊆ handed') {id : DocumentId}
    (h : Warranted root arrived handed id) : Warranted root arrived' handed' id := by
  rcases h with hroot | ⟨edge, hmem, hid, hreason⟩
  · exact .inl hroot
  · refine .inr ⟨edge, hhanded hmem, hid, hreason.imp_right ?_⟩
    exact fun ⟨other, hother, hnamed⟩ ↦ ⟨other, harrived hother, hnamed⟩

/-- Where the edges stand that have arrived at a shard: `handed` are those whose parent
was found reachable, `work` holds the children that are still to be resolved. -/
structure Ledger (root : DocumentId) (arrived handed : Multiset Edge) (work : Multiset Child)
    (shard : Shard) : Prop where
  accounted : arrived = handed + shard.edges
  work_le : work ≤ handed.map Edge.child
  tidy : shard.Tidy
  root_mem : root ∈ shard.reachable
  /-- An edge is handed out for a reason. -/
  connected : ∀ edge ∈ handed, Connected root (Names arrived) edge.parent
  /-- A child that asks to be kept is kept once it is resolved. -/
  kept : ∀ edge ∈ handed, edge.retain = true → edge.id ∈ shard.reachable ∨ edge.child ∈ work
  warranted : ∀ id ∈ shard.reachable, Warranted root arrived handed id

namespace Ledger

variable {root : DocumentId} {arrived handed : Multiset Edge} {work : Multiset Child}
  {shard : Shard}

theorem ofRoot (root : DocumentId) : Ledger root 0 0 0 (Shard.empty.mark root) where
  accounted := by simp
  work_le := le_rfl
  tidy := Shard.tidy_empty.mark (by simp [Shard.empty])
  root_mem := Std.HashSet.mem_insert_self
  connected := by simp
  kept := by simp
  warranted := by
    intro id hid
    rcases Std.HashSet.mem_insert.mp hid with heq | hempty
    · exact .inl (beq_iff_eq.mp heq).symm
    · exact absurd hempty Std.HashSet.not_mem_empty

theorem handed_subset (h : Ledger root arrived handed work shard) : handed ⊆ arrived := by
  rw [h.accounted]
  exact Multiset.subset_of_le (Multiset.le_add_right _ _)

theorem warranted_arrived (h : Ledger root arrived handed work shard) {id : DocumentId}
    (hid : id ∈ shard.reachable) : Warranted root arrived arrived id :=
  (h.warranted id hid).mono (Multiset.Subset.refl _) h.handed_subset

/-- What is reachable is connected. -/
theorem connected_of_reachable (h : Ledger root arrived handed work shard) {id : DocumentId}
    (hid : id ∈ shard.reachable) : Connected root (Names arrived) id := by
  rcases h.warranted id hid with rfl | ⟨edge, hmem, rfl, -⟩
  · exact .root
  · exact .of_mem (h.handed_subset hmem) (h.connected edge hmem)

open scoped Classical in
/-- None of the edges whose parent is not connected has been handed out. -/
theorem detached_eq_filter (h : Ledger root arrived handed work shard) :
    detached root arrived =
      shard.edges.filter fun edge ↦ ¬ Connected root (Names arrived) edge.parent := by
  have hhanded : handed.filter (fun edge ↦ ¬ Connected root (Names arrived) edge.parent) = 0 :=
    Multiset.filter_eq_nil.mpr fun edge hmem hnot ↦ hnot (h.connected edge hmem)
  calc detached root arrived
      = (handed + shard.edges).filter
          (fun edge ↦ ¬ Connected root (Names arrived) edge.parent) := by
        rw [← h.accounted, detached]
    _ = shard.edges.filter (fun edge ↦ ¬ Connected root (Names arrived) edge.parent) := by
        rw [Multiset.filter_add, hhanded, zero_add]

/-- So they are parked, whatever became of the others. -/
theorem detached_le_edges (h : Ledger root arrived handed work shard) :
    detached root arrived ≤ shard.edges := by
  classical
  rw [h.detached_eq_filter]
  exact Multiset.filter_le _ _

/-- An edge arrives, and is parked or starts a cascade. -/
theorem arrive (h : Ledger root arrived handed work shard) (edge : Edge) :
    Ledger root (edge ::ₘ arrived) (handed + (shard.arrive edge).1.map (Child.under edge.parent))
      ((shard.arrive edge).1 + work) (shard.arrive edge).2 := by
  have hmore : arrived ⊆ edge ::ₘ arrived := Multiset.subset_cons _ _
  have hconnected {id : DocumentId} (hid : Connected root (Names arrived) id) :
      Connected root (Names (edge ::ₘ arrived)) id := hid.mono (Names.mono hmore)
  have haccount : edge ::ₘ arrived =
      handed + (shard.arrive edge).1.map (Child.under edge.parent) +
        (shard.arrive edge).2.edges := by
    rw [add_assoc, Shard.edges_arrive, Multiset.add_cons, h.accounted]
  have htidy := h.tidy.arrive edge
  unfold Shard.arrive at htidy haccount ⊢
  split_ifs at htidy haccount ⊢ with hparent
  · have hhanded : handed + ([edge.child].map (Child.under edge.parent) : List Edge) =
        edge ::ₘ handed := by
      rw [add_comm]
      rfl
    rw [hhanded] at haccount ⊢
    refine ⟨haccount, ?_, htidy, h.root_mem, ?_, ?_, ?_⟩
    · rw [Multiset.map_cons, Multiset.coe_singleton, Multiset.singleton_add]
      exact Multiset.cons_le_cons _ h.work_le
    · intro other hother
      rcases Multiset.mem_cons.mp hother with rfl | hmem
      · exact hconnected (h.connected_of_reachable hparent)
      · exact hconnected (h.connected other hmem)
    · intro other hother hretain
      rcases Multiset.mem_cons.mp hother with rfl | hmem
      · simp
      · rcases h.kept other hmem hretain with hreachable | hwork
        · exact .inl hreachable
        · exact .inr (Multiset.mem_add.mpr (.inr hwork))
    · exact fun id hid ↦ (h.warranted id hid).mono hmore (Multiset.subset_cons _ _)
  · rw [List.map_nil, Multiset.coe_nil, add_zero] at haccount ⊢
    dsimp only
    rw [Multiset.coe_nil, zero_add]
    exact ⟨haccount, h.work_le, htidy, h.root_mem,
      fun other hmem ↦ hconnected (h.connected other hmem), h.kept,
      fun id hid ↦ (h.warranted id hid).mono hmore (Multiset.Subset.refl _)⟩

/-- A child of the work list is resolved, and what was parked under it is handed out. -/
theorem resolve {child : Child} (h : Ledger root arrived handed (child ::ₘ work) shard) :
    Ledger root arrived (handed + (shard.resolve child).1.map (Child.under child.id))
      ((shard.resolve child).1 + work) (shard.resolve child).2 := by
  obtain ⟨edge, hedge, hchild⟩ : ∃ edge ∈ handed, edge.child = child := by
    refine Multiset.mem_map.mp (Multiset.mem_of_le h.work_le ?_)
    exact Multiset.mem_cons_self child work
  have hid : edge.id = child.id := congrArg Child.id hchild
  have hconnected : Connected root (Names arrived) child.id := by
    rw [← hid]
    exact .of_mem (h.handed_subset hedge) (h.connected edge hedge)
  let released : Multiset Edge := (shard.resolve child).1.map (Child.under child.id)
  have hreleased : released + (shard.resolve child).2.edges = shard.edges :=
    Shard.edges_resolve child shard
  have hunder {other : Edge} (hother : other ∈ released) :
      other.parent = child.id ∧ other.child ∈ (shard.resolve child).1 := by
    obtain ⟨waiting, hwaiting, rfl⟩ := List.mem_map.mp (Multiset.mem_coe.mp hother)
    exact ⟨rfl, hwaiting⟩
  have hreachable := Shard.mem_reachable_resolve child shard
  refine ⟨?_, ?_, h.tidy.resolve child, ?_, ?_, ?_, ?_⟩
  · rw [add_assoc, hreleased, h.accounted]
  · have hmap : released.map Edge.child = ((shard.resolve child).1 : Multiset Child) := by
      simp [released, Function.comp_def]
    rw [Multiset.map_add, hmap, add_comm]
    exact Multiset.add_le_add_right (le_trans (Multiset.le_cons_self work child) h.work_le)
  · exact (hreachable root).mpr (.inl h.root_mem)
  · intro other hother
    rcases Multiset.mem_add.mp hother with hmem | hmem
    · exact h.connected other hmem
    · rw [(hunder hmem).1]
      exact hconnected
  · intro other hother hretain
    rcases Multiset.mem_add.mp hother with hmem | hmem
    · rcases h.kept other hmem hretain with hkept | hwork
      · exact .inl ((hreachable _).mpr (.inl hkept))
      · rcases Multiset.mem_cons.mp hwork with heq | hwork
        · have hretained : child.retain = true := by rw [← heq]; exact hretain
          exact .inl ((hreachable _).mpr (.inr ⟨congrArg Child.id heq, .inl hretained⟩))
        · exact .inr (Multiset.mem_add.mpr (.inr hwork))
    · exact .inr (Multiset.mem_add.mpr (.inl (hunder hmem).2))
  · intro id hmem
    rcases (hreachable id).mp hmem with hold | ⟨rfl, hreason⟩
    · exact (h.warranted id hold).mono (Multiset.Subset.refl _)
        (Multiset.subset_of_le (Multiset.le_add_right _ _))
    · refine .inr ⟨edge, Multiset.mem_add.mpr (.inl hedge), hid, ?_⟩
      rcases hreason with hretained | hpending
      · exact .inl (by rw [← hretained, ← hchild]; rfl)
      · obtain ⟨waiting, hwaiting⟩ :=
          List.exists_mem_of_ne_nil _ ((h.tidy.mem_pending_iff _).mp hpending)
        have hparked : waiting.under child.id ∈ shard.edges := Shard.mem_edges.mpr hwaiting
        refine .inr ⟨waiting.under child.id, ?_, rfl⟩
        rw [h.accounted]
        exact Multiset.mem_add.mpr (.inr hparked)

section Settled

variable (h : Ledger root arrived handed 0 shard)
  (haccurate : Accurate arrived)

include h haccurate

/-- Once every child is resolved, a connected id is reachable if an edge names it. -/
theorem reachable_of_connected {id : DocumentId} (hid : Connected root (Names arrived) id)
    (hnamed : ∃ other ∈ arrived, other.parent = id) : id ∈ shard.reachable := by
  induction hid with
  | root => exact h.root_mem
  | child hnames _ ih =>
    obtain ⟨edge, hmem, rfl, rfl⟩ := hnames
    have hparent : edge.parent ∈ shard.reachable := ih ⟨edge, hmem, rfl⟩
    have hhanded : edge ∈ handed := by
      rcases Multiset.mem_add.mp (h.accounted ▸ hmem) with hhanded | hparked
      · exact hhanded
      · exact absurd hparent (h.tidy.not_reachable_of_mem_edges hparked)
    obtain ⟨other, hother, heq⟩ := hnamed
    rcases h.kept edge hhanded (haccurate edge hmem other hother heq) with hreachable | hwork
    · exact hreachable
    · exact absurd hwork (Multiset.notMem_zero _)

theorem not_connected_of_mem_edges {edge : Edge} (hmem : edge ∈ shard.edges) :
    ¬ Connected root (Names arrived) edge.parent := by
  intro hconnected
  have harrived : edge ∈ arrived := by
    rw [h.accounted]
    exact Multiset.mem_add.mpr (.inr hmem)
  exact h.tidy.not_reachable_of_mem_edges hmem
    (h.reachable_of_connected haccurate hconnected ⟨edge, harrived, rfl⟩)

/-- Parked are exactly the edges whose parent is not connected to the root. -/
theorem edges_eq_detached : shard.edges = detached root arrived := by
  classical
  rw [h.detached_eq_filter]
  exact (Multiset.filter_eq_self.mpr fun _ hmem ↦
    h.not_connected_of_mem_edges haccurate hmem).symm

/-- Reachable are exactly the root and the retained ids whose parent is connected. -/
theorem mem_reachable_iff (id : DocumentId) :
    id ∈ shard.reachable ↔ id = root ∨ ∃ edge ∈ arrived, edge.id = id ∧ edge.retain = true ∧
      Connected root (Names arrived) edge.parent := by
  constructor
  · intro hid
    rcases h.warranted id hid with hroot | ⟨edge, hmem, rfl, hreason⟩
    · exact .inl hroot
    · refine .inr ⟨edge, h.handed_subset hmem, rfl, ?_, h.connected edge hmem⟩
      rcases hreason with hretain | ⟨other, hother, heq⟩
      · exact hretain
      · exact haccurate edge (h.handed_subset hmem) other hother heq
  · rintro (rfl | ⟨edge, hmem, rfl, hretain, hconnected⟩)
    · exact h.root_mem
    · rcases Multiset.mem_add.mp (h.accounted ▸ hmem) with hhanded | hparked
      · rcases h.kept edge hhanded hretain with hreachable | hwork
        · exact hreachable
        · exact absurd hwork (Multiset.notMem_zero _)
      · exact absurd hconnected (h.not_connected_of_mem_edges haccurate hparked)

end Settled

theorem accurate_of_retain {edges : Multiset Edge} (h : ∀ edge ∈ edges, edge.retain = true) :
    Accurate edges :=
  fun edge hmem _ _ _ ↦ h edge hmem

/-- If all edges are to be retained, reachable is what is connected. -/
theorem mem_reachable_iff_connected (h : Ledger root arrived handed 0 shard)
    (hretain : ∀ edge ∈ arrived, edge.retain = true) (id : DocumentId) :
    id ∈ shard.reachable ↔ Connected root (Names arrived) id := by
  rw [h.mem_reachable_iff (accurate_of_retain hretain), connected_iff]
  refine or_congr_right ⟨?_, ?_⟩
  · rintro ⟨edge, hmem, hid, -, hparent⟩
    exact ⟨edge.parent, ⟨edge, hmem, hid, rfl⟩, hparent⟩
  · rintro ⟨parent, ⟨edge, hmem, hid, rfl⟩, hparent⟩
    exact ⟨edge, hmem, hid, hretain edge hmem, hparent⟩

end Ledger

end TreeAudit.Reachability
