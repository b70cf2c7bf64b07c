import TreeAudit.Proofs.Reachability.Crew

/-!
Turns that show. A crew is followed from one stage to the next, its shards taken as one whole
(`Leads`, `Reaches`). Two workers are sent the edge of a folder that is not to be retained and
then that of a leaf below it. If the one is done with the folder first the leaf is left parked
(`drain_join_prompt`), and if the leaf overtakes it nothing is (`drain_join_overtaken`). So nothing
weaker than the conditions of `Staff.Interchangeable` leads to one listing whatever the turns.
-/

set_option autoImplicit false
set_option relaxedAutoImplicit false

namespace TreeAudit.Reachability

namespace Shard

variable {edge : Edge} {shard : Shard}

theorem arrive_of_mem (h : edge.parent ∈ shard.reachable) :
    shard.arrive edge = ([edge.child], shard) := if_pos h

theorem arrive_of_notMem (h : edge.parent ∉ shard.reachable) :
    shard.arrive edge = ([], shard.park edge) := if_neg h

/-- Of no edge parked nothing is listed. -/
theorem unresolved_eq_nil (h : shard.parked = 0) : shard.unresolved = [] := by
  rw [unresolved, List.eq_nil_of_length_eq_zero h, List.map_nil]

end Shard

theorem Index.mem_reachable_ofRoot {root id : DocumentId} :
    id ∈ (ofRoot root).shard.reachable ↔ id = root := by
  rw [ofRoot, Shard.mark, Std.HashSet.mem_insert, beq_iff_eq, eq_comm]
  exact or_iff_left Std.HashSet.not_mem_empty

theorem Index.parked_ofRoot (root : DocumentId) : (ofRoot root).shard.parked = 0 := by
  rw [← Shard.card_edges, ofRoot, Shard.edges_mark, Shard.edges_empty, Multiset.card_zero]

namespace Crew

variable {n : ℕ}

/-- What a crew has come to, its shards taken as one whole. -/
structure Stage (n : ℕ) where
  channel : List Edge
  duties : Vector Duty n
  whole : Shard
  moment : ℕ

/-- The crew at that stage with these shards. -/
def Stage.crew (stage : Stage n) (index : Sharded) : Crew n :=
  ⟨stage.channel, stage.duties, index, stage.moment⟩

/-- Workers who go on from the one stage halt at the other, or are at rest there. -/
def Leads (turn : ℕ → Option ℕ) (halts : Crew n → Bool) (first last : Stage n) : Prop :=
  ∀ index : Sharded, index.Splits first.whole → ∃ after : Sharded, after.Splits last.whole ∧
    (first.crew index).advance turn halts = last.crew after

namespace Leads

variable {turn : ℕ → Option ℕ} {halts : Crew n → Bool} {channel : List Edge}
  {duties : Vector Duty n} {whole : Shard} {moment : ℕ} {last : Stage n}

theorem halt (h : ∀ index, halts (last.crew index) = true) : Leads turn halts last last :=
  fun index hsplits ↦ ⟨index, hsplits, advance_of_halts (h index)⟩

theorem rest (h : ∀ index, (last.crew index).next? turn = none) : Leads turn halts last last :=
  fun index hsplits ↦ ⟨index, hsplits, advance_of_next?_eq_none (h index)⟩

variable (worker : Fin n)

theorem take {edge : Edge} (hduty : duties.get worker = .free)
    (hgoes : ∀ index, halts ⟨edge :: channel, duties, index, moment⟩ = false)
    (hnext : ∀ index, next? turn ⟨edge :: channel, duties, index, moment⟩ = some worker)
    (h : Leads turn halts
      ⟨channel, duties.set worker (.deciding edge) worker.isLt, whole, moment + 1⟩ last) :
    Leads turn halts ⟨edge :: channel, duties, whole, moment⟩ last := by
  intro index hsplits
  obtain ⟨after, hafter, hlast⟩ := h index hsplits
  refine ⟨after, hafter, ?_⟩
  rw [Stage.crew, advance_of_next?_eq_some (by simp [hgoes]) (hnext index), ← hlast]
  simp only [move, hduty, Duty.free, Stage.crew]

variable (hgoes : ∀ index, halts ⟨channel, duties, index, moment⟩ = false)
  (hnext : ∀ index, next? turn ⟨channel, duties, index, moment⟩ = some worker)
include hgoes hnext

theorem decide {edge : Edge} {children : List Child} {next : Shard}
    (hduty : duties.get worker = .deciding edge)
    (harrive : whole.arrive edge = (children, next))
    (h : Leads turn halts
      ⟨channel, duties.set worker (.resolving children) worker.isLt, next, moment + 1⟩ last) :
    Leads turn halts ⟨channel, duties, whole, moment⟩ last := by
  intro index hsplits
  obtain ⟨hchildren, hnext'⟩ := hsplits.arrive edge
  rw [harrive] at hchildren hnext'
  obtain ⟨after, hafter, hlast⟩ := h _ hnext'
  refine ⟨after, hafter, ?_⟩
  rw [Stage.crew, advance_of_next?_eq_some (by simp [hgoes]) (hnext index), ← hlast]
  simp only [move, hduty, hchildren, Stage.crew]

theorem resolve {child : Child} {others children : List Child} {next : Shard}
    (hduty : duties.get worker = .resolving (child :: others))
    (hresolve : whole.resolve child = (children, next))
    (h : Leads turn halts
      ⟨channel, duties.set worker (.resolving (children ++ others)) worker.isLt, next,
        moment + 1⟩ last) :
    Leads turn halts ⟨channel, duties, whole, moment⟩ last := by
  intro index hsplits
  obtain ⟨hchildren, hnext'⟩ := hsplits.resolve child
  rw [hresolve] at hchildren hnext'
  obtain ⟨after, hafter, hlast⟩ := h _ hnext'
  refine ⟨after, hafter, ?_⟩
  rw [Stage.crew, advance_of_next?_eq_some (by simp [hgoes]) (hnext index), ← hlast]
  simp only [move, hduty, hchildren, Stage.crew]

end Leads

/-- It is the sender's turn. -/
def isSenders (turn : ℕ → Option ℕ) (crew : Crew n) : Bool := (turn crew.moment).isNone

/-- A crew that was sent edges is at that stage. -/
def Reaches (staff : Staff) (root : DocumentId) (edges : List Edge) (stage : Stage staff.size) :
    Prop :=
  ∃ index : Sharded, index.Splits stage.whole ∧ sent staff root edges = stage.crew index

namespace Reaches

variable {staff : Staff} {root : DocumentId} {edges : List Edge} {first last : Stage staff.size}

theorem nil : Reaches staff root []
    ⟨[], .replicate staff.size .free, (Index.ofRoot root).shard, 0⟩ :=
  ⟨_, .ofRoot staff.chance.hash staff.shards root, rfl⟩

/-- There is room for the edge at once. -/
theorem send (h : Reaches staff root edges first) (hroom : first.channel = []) {edge : Edge}
    (hleads : Leads staff.chance.turn (isSenders staff.chance.turn)
      ⟨[edge], first.duties, first.whole, first.moment⟩ last) :
    Reaches staff root (edges ++ [edge]) { last with moment := last.moment + 1 } := by
  obtain ⟨index, hsplits, hfirst⟩ := h
  obtain ⟨after, hafter, hlast⟩ := hleads index hsplits
  have hcapacity : 0 < staff.capacity := Nat.lt_of_lt_of_le Nat.zero_lt_one (Nat.le_max_right _ _)
  refine ⟨after, hafter, ?_⟩
  rw [sent, sendAll_concat, ← sent, hfirst, Crew.send,
    advance_of_halts (by simpa [Stage.crew, hroom] using hcapacity)]
  refine Eq.trans ?_ (congrArg (fun crew : Crew staff.size ↦
    { crew with moment := crew.moment + 1 }) hlast)
  simp only [pass, Stage.crew, hroom, List.nil_append]
  rfl

theorem drain_join (h : Reaches staff root edges first)
    (hleads : Leads staff.chance.turn (fun _ ↦ false) first last) :
    ((sent staff root edges).join staff).index.drain.1 =
      last.whole.unresolved.mergeSort Unresolved.le := by
  obtain ⟨index, hsplits, hfirst⟩ := h
  obtain ⟨after, hafter, hlast⟩ := hleads index hsplits
  rw [join, hfirst, hlast]
  exact hafter.drain_eq

end Reaches

/-! ### A folder that is forgotten -/

section Folder

variable {root folder : DocumentId} (h : folder ≠ root) (leaf : DocumentId) (room : ℕ)
  (hash : DocumentId → UInt64)
include h

/-- The first worker is done with the edge of the folder before that of the leaf comes. The folder
is not retained, so the leaf is left parked. -/
theorem drain_join_prompt :
    let staff : Staff := ⟨2, room, ⟨hash, fun _ ↦ some 0⟩⟩
    ((sent staff root [⟨folder, root, false⟩, ⟨leaf, folder, true⟩]).join staff).index.drain.1 =
      [⟨leaf, folder⟩] := by
  intro staff
  let rooted := (Index.ofRoot root).shard
  let waiting := rooted.park ⟨leaf, folder, true⟩
  let free : Vector Duty 2 := .replicate 2 .free
  have hforgotten : rooted.resolve ⟨folder, false⟩ = ([], rooted) := by
    simp [rooted, Index.ofRoot, Shard.resolve, Shard.mark, Shard.empty]
  have hdone : Leads staff.chance.turn (isSenders staff.chance.turn)
      ⟨[⟨folder, root, false⟩], free, rooted, 0⟩ ⟨[], free, rooted, 3⟩ := by
    refine .take 0 rfl (fun _ ↦ rfl) (fun _ ↦ rfl) ?_
    refine .decide 0 (fun _ ↦ rfl) (fun _ ↦ rfl) rfl
      (Shard.arrive_of_mem (Index.mem_reachable_ofRoot.mpr rfl)) ?_
    refine .resolve 0 (fun _ ↦ rfl) (fun _ ↦ rfl) rfl hforgotten ?_
    exact .rest fun _ ↦ rfl
  have hparked : Leads staff.chance.turn (isSenders staff.chance.turn)
      ⟨[⟨leaf, folder, true⟩], free, rooted, 4⟩ ⟨[], free, waiting, 6⟩ := by
    refine .take 0 rfl (fun _ ↦ rfl) (fun _ ↦ rfl) ?_
    refine .decide 0 (fun _ ↦ rfl) (fun _ ↦ rfl) rfl
      (Shard.arrive_of_notMem (mt Index.mem_reachable_ofRoot.mp h)) ?_
    exact .rest fun _ ↦ rfl
  have hsent := (Reaches.nil.send rfl hdone).send rfl hparked
  refine (hsent.drain_join (.rest fun _ ↦ rfl)).trans ?_
  have hempty : rooted.edges = 0 := Shard.edges_empty
  have hlisted := Shard.coe_unresolved waiting
  rw [Shard.edges_park, hempty, Multiset.map_cons, Multiset.map_zero, Multiset.cons_zero,
    Multiset.coe_eq_singleton] at hlisted
  rw [hlisted, List.mergeSort_singleton]
  rfl

/-- The first worker has the edge of the folder in hand while the second parks that of the leaf.
So the folder is retained, and nothing is left parked. -/
theorem drain_join_overtaken :
    let staff : Staff :=
      ⟨2, room, ⟨hash, fun moment ↦ [some 0, none, some 1, some 1].getD moment none⟩⟩
    ((sent staff root [⟨folder, root, false⟩, ⟨leaf, folder, true⟩]).join staff).index.drain.1 =
      [] := by
  intro staff
  let rooted := (Index.ofRoot root).shard
  let waiting := rooted.park ⟨leaf, folder, true⟩
  let opened := (waiting.resolve ⟨folder, false⟩).2
  let closed := (opened.resolve ⟨leaf, true⟩).2
  let free : Vector Duty 2 := .replicate 2 .free
  let held := free.set 0 (.deciding ⟨folder, root, false⟩)
  have htaken : Leads staff.chance.turn (isSenders staff.chance.turn)
      ⟨[⟨folder, root, false⟩], free, rooted, 0⟩ ⟨[], held, rooted, 1⟩ := by
    refine .take 0 rfl (fun _ ↦ rfl) (fun _ ↦ rfl) ?_
    exact .halt fun _ ↦ rfl
  have hparked : Leads staff.chance.turn (isSenders staff.chance.turn)
      ⟨[⟨leaf, folder, true⟩], held, rooted, 2⟩ ⟨[], held, waiting, 4⟩ := by
    refine .take 1 rfl (fun _ ↦ rfl) (fun _ ↦ rfl) ?_
    refine .decide 1 (fun _ ↦ rfl) (fun _ ↦ rfl) rfl
      (Shard.arrive_of_notMem (mt Index.mem_reachable_ofRoot.mp h)) ?_
    exact .halt fun _ ↦ rfl
  have hsent := (Reaches.nil.send rfl htaken).send rfl hparked
  have hkept : waiting.resolve ⟨folder, false⟩ = ([⟨leaf, true⟩], opened) := by
    refine Prod.ext ?_ rfl
    rw [Shard.resolve_fst, Shard.waiting_park, if_pos rfl]
    exact congrArg _ Std.HashMap.getD_empty
  have hpark : waiting.parked = 1 := by rw [Shard.parked_park, Index.parked_ofRoot]
  have hopened : 1 + opened.parked = 1 := by
    have hresolved := (Shard.parked_resolve ⟨folder, false⟩ waiting).trans hpark
    rwa [hkept, List.length_singleton] at hresolved
  have hclosed : (opened.resolve ⟨leaf, true⟩).1.length + closed.parked = opened.parked :=
    Shard.parked_resolve ⟨leaf, true⟩ opened
  have hlast : opened.resolve ⟨leaf, true⟩ = ([], closed) :=
    Prod.ext (List.eq_nil_of_length_eq_zero (by omega)) rfl
  have hrest : Leads staff.chance.turn (fun _ ↦ false) ⟨[], held, waiting, 5⟩
      ⟨[], free, closed, 8⟩ := by
    refine .decide 0 (fun _ ↦ rfl) (fun _ ↦ rfl) rfl
      (Shard.arrive_of_mem (Index.mem_reachable_ofRoot.mpr rfl)) ?_
    refine .resolve 0 (fun _ ↦ rfl) (fun _ ↦ rfl) rfl hkept ?_
    refine .resolve 0 (fun _ ↦ rfl) (fun _ ↦ rfl) rfl hlast ?_
    exact .rest fun _ ↦ rfl
  refine (hsent.drain_join hrest).trans ?_
  have hnone : closed.parked = 0 := by omega
  rw [Shard.unresolved_eq_nil hnone, List.mergeSort_nil]

end Folder

end Crew

end TreeAudit.Reachability
