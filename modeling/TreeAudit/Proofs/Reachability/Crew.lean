import TreeAudit.Reachability.Crew
import TreeAudit.Proofs.Reachability.Pool

/-!
Workers whose turns are left to chance, as a pool. Every step of a crew is a step of the pool or,
when an edge is only taken out of the channel, none (`run_move`), and edges that are sent later
could have been in the channel of the pool from the start (`Pool.Step.post`). So a crew that was
sent edges is at a point of some run of the pool with all of them (`run_sent`), and at rest it
is a settled pool (`settled_join`): what is known of all runs of the pool holds of a crew,
whatever turns its workers take.

The turns may show in what is left parked. They do not if no edge that is not to be retained names
a parent, since all settled pools are alike then. Nor do they if there is one worker, who decides
the edges in the order in which they were sent (`splits_join_of_alone`). How ids are spread over
the shards shows in nothing, for the same turns (`Alike`). These are the staffs that can stand in
for each other (`Staff.Interchangeable`).
-/

set_option autoImplicit false
set_option relaxedAutoImplicit false

namespace TreeAudit.Reachability

namespace Pool

variable {n : ℕ}

/-- The pool with more edges in its channel. -/
def post (more : Multiset Edge) (pool : Pool n) : Pool n :=
  { pool with channel := pool.channel + more }

/-- More edges in the channel keep no worker from a step. -/
theorem Step.post {pool next : Pool n} (h : Step pool next) (more : Multiset Edge) :
    Step (pool.post more) (next.post more) := by
  cases h with
  | take worker edge left hchannel hidle =>
    refine .take worker edge (left + more) ?_ hidle
    rw [Pool.post, hchannel, Multiset.cons_add]
  | resolve worker child rest hwork => exact .resolve worker child rest hwork

theorem run_post {pool next : Pool n} (h : Run pool next) (more : Multiset Edge) :
    Run (pool.post more) (next.post more) :=
  h.lift (Pool.post more) fun _ _ hstep ↦ hstep.post more

end Pool

namespace Duty

/-- The edge in hand. -/
def held : Duty → Multiset Edge
  | deciding edge => {edge}
  | resolving _ => 0

def children : Duty → List Child
  | deciding _ => []
  | resolving children => children

end Duty

namespace Crew

variable {n : ℕ} {root : DocumentId}

/-- The edges that workers have in hand. -/
def inHand (duties : Vector Duty n) : Multiset Edge :=
  ∑ worker : Fin n, (duties.get worker).held

/-- The crew as a pool, which counts an edge as taken once it is decided. -/
def pool (crew : Crew n) : Pool n where
  channel := crew.channel + inHand crew.duties
  work worker := (crew.duties.get worker).children
  index := crew.index

theorem get_set_self (duties : Vector Duty n) (worker : Fin n) (duty : Duty) :
    (duties.set worker duty worker.isLt).get worker = duty :=
  Vector.getElem_set_self worker.isLt

theorem get_replicate (duty : Duty) (worker : Fin n) :
    (Vector.replicate n duty).get worker = duty :=
  Vector.getElem_replicate worker.isLt

theorem get_set (duties : Vector Duty n) (worker : Fin n) (duty : Duty) :
    (fun other : Fin n ↦ (duties.set worker duty worker.isLt).get other) =
      Function.update (fun other ↦ duties.get other) worker duty := by
  funext other
  by_cases h : other = worker
  · subst h
    rw [get_set_self, Function.update_self]
  · rw [Function.update_of_ne h]
    exact Vector.getElem_set_ne worker.isLt other.isLt fun heq ↦ h (Fin.ext heq.symm)

theorem inHand_set (duties : Vector Duty n) (worker : Fin n) (duty : Duty) :
    inHand (duties.set worker duty worker.isLt) + (duties.get worker).held =
      inHand duties + duty.held := by
  have hset : (fun other : Fin n ↦ ((duties.set worker duty worker.isLt).get other).held) =
      Function.update (fun other ↦ (duties.get other).held) worker duty.held := by
    have h := congrArg (Duty.held ∘ ·) (get_set duties worker duty)
    rwa [Function.comp_update] at h
  have hsum := Finset.add_sum_erase Finset.univ (fun other : Fin n ↦ (duties.get other).held)
    (Finset.mem_univ worker)
  rw [inHand, hset, Finset.sum_update_of_mem (Finset.mem_univ worker),
    Finset.sdiff_singleton_eq_erase, inHand, ← hsum]
  ac_rfl

/-- When a worker takes another thing in hand. -/
theorem pool_set (channel : List Edge) (duties : Vector Duty n)
    (worker : Fin n) (duty : Duty) (index : Sharded) (moment : ℕ) :
    pool ⟨channel, duties.set worker duty worker.isLt, index, moment⟩ =
      ⟨channel + inHand (duties.set worker duty worker.isLt),
        Function.update (pool ⟨channel, duties, index, moment⟩).work worker duty.children,
        index⟩ := by
  have hset := congrArg (Duty.children ∘ ·) (get_set duties worker duty)
  rw [Function.comp_update] at hset
  exact congrArg (Pool.mk _ · _) hset

/-- A step of a crew is a step of the pool, or none if an edge is only taken. -/
theorem run_move (crew : Crew n) (worker : Fin n) :
    Pool.Run crew.pool (crew.move worker).pool := by
  obtain ⟨channel, duties, index, moment⟩ := crew
  have hset := inHand_set duties worker
  have hwork : (pool ⟨channel, duties, index, moment⟩).work worker =
      (duties.get worker).children := rfl
  simp only [move]
  split
  · next edge hduty =>
    rw [hduty] at hwork hset
    specialize hset
      (.resolving (index.visit edge.parent fun shard ↦ shard.arrive edge).1)
    rw [Duty.held, Duty.held, add_zero] at hset
    rw [pool_set]
    refine .single (.take worker edge _ ?_ hwork)
    change (channel : Multiset Edge) + inHand duties = _
    rw [← hset, ← Multiset.singleton_add]
    ac_rfl
  · next child rest hduty =>
    rw [hduty] at hwork hset
    specialize hset
      (.resolving ((index.visit child.id fun shard ↦ shard.resolve child).1 ++ rest))
    rw [Duty.held, Duty.held, add_zero, add_zero] at hset
    rw [pool_set, hset]
    exact .single (.resolve worker child rest hwork)
  · next hduty =>
    cases channel with
    | nil => exact .refl
    | cons edge rest =>
      rw [hduty] at hwork hset
      specialize hset (.deciding edge)
      rw [Duty.held, Duty.held, add_zero] at hset
      have hsame : pool ⟨rest, duties.set worker (.deciding edge) worker.isLt, index, moment + 1⟩ =
          pool ⟨edge :: rest, duties, index, moment⟩ := by
        rw [pool_set]
        refine congrArg₂ (Pool.mk · · index) ?_ ?_
        · change _ = ((edge :: rest : List Edge) : Multiset Edge) + inHand duties
          rw [hset, ← Multiset.cons_coe, ← Multiset.singleton_add]
          ac_rfl
        · exact Function.update_eq_self_iff.mpr hwork.symm
      rw [hsame]

theorem run_advance (turn : ℕ → Option ℕ) (halts : Crew n → Bool) (crew : Crew n) :
    Pool.Run crew.pool (crew.advance turn halts).pool := by
  fun_induction advance turn halts crew with
  | case1 => exact .refl
  | case2 => exact .refl
  | case3 crew hgoes worker hnext ih => exact (crew.run_move worker).trans ih

/-- The crew with one more edge in its channel. -/
def post (edge : Edge) (crew : Crew n) : Crew n := { crew with channel := crew.channel ++ [edge] }

theorem pool_post (edge : Edge) (crew : Crew n) :
    (crew.post edge).pool = crew.pool.post {edge} := by
  refine congrArg (Pool.mk · _ _) ?_
  dsimp only [pool, post]
  rw [← Multiset.coe_add, Multiset.coe_singleton]
  ac_rfl

theorem run_send (staff : Staff) (edge : Edge) (crew : Crew n) :
    Pool.Run (crew.pool.post {edge}) (crew.send staff edge).pool := by
  have hwait := Pool.run_post
    (crew.run_advance staff.chance.turn fun crew ↦ crew.channel.length < staff.capacity) {edge}
  have hpass := run_advance staff.chance.turn (fun crew ↦ (staff.chance.turn crew.moment).isNone)
    ((crew.advance staff.chance.turn fun crew ↦ crew.channel.length < staff.capacity).post edge)
  rw [pool_post] at hpass
  exact hwait.trans hpass

/-- Sends edges in order. -/
def sendAll (staff : Staff) (edges : List Edge) (crew : Crew n) : Crew n :=
  edges.foldl (fun crew edge ↦ crew.send staff edge) crew

theorem sendAll_concat (staff : Staff) (edges : List Edge) (edge : Edge) (crew : Crew n) :
    crew.sendAll staff (edges ++ [edge]) = (crew.sendAll staff edges).send staff edge := by
  rw [sendAll, List.foldl_append]
  rfl

/-- The crew of a staff that was sent edges. -/
def sent (staff : Staff) (root : DocumentId) (edges : List Edge) : Crew staff.size :=
  (ofRoot staff root).sendAll staff edges

theorem get_duties_ofRoot (staff : Staff) (root : DocumentId) (worker : Fin staff.size) :
    (ofRoot staff root).duties.get worker = .free := get_replicate .free worker

theorem pool_ofRoot (staff : Staff) (root : DocumentId) :
    (ofRoot staff root).pool =
      Pool.start staff.size staff.chance.hash staff.shards root 0 := by
  have hheld : inHand (ofRoot staff root).duties = 0 :=
    Finset.sum_eq_zero fun worker _ ↦ by rw [get_duties_ofRoot, Duty.free, Duty.held]
  refine congrArg₂ (Pool.mk · · _) ?_ (funext fun worker ↦ ?_)
  · rw [hheld, add_zero]
    rfl
  · rw [get_duties_ofRoot]
    rfl

/-- A crew that was sent edges is at a point of a run of the pool with these edges. -/
theorem run_sent (staff : Staff) (root : DocumentId) (edges : List Edge) :
    Pool.Run (Pool.start staff.size staff.chance.hash staff.shards root edges)
      (sent staff root edges).pool := by
  induction edges using List.reverseRecOn with
  | nil =>
    rw [sent, sendAll, List.foldl_nil, pool_ofRoot]
    exact .refl
  | append_singleton edges edge ih =>
    have hpost := Pool.run_post ih {edge}
    have hstart : (Pool.start staff.size staff.chance.hash staff.shards root edges).post {edge} =
        Pool.start staff.size staff.chance.hash staff.shards root
          (edges ++ [edge] : List Edge) := by
      refine congrArg (Pool.mk · _ _) ?_
      rw [← Multiset.coe_add, Multiset.coe_singleton]
      rfl
    rw [hstart] at hpost
    rw [sent, sendAll_concat]
    exact hpost.trans (run_send staff edge _)

/-! ### At rest -/

theorem next?_eq_none_iff (turn : ℕ → Option ℕ) (crew : Crew n) :
    crew.next? turn = none ↔ ∀ worker, crew.isReady worker = false := by
  have hready : crew.ready = [] ↔ ∀ worker, crew.isReady worker = false := by
    simp [ready, List.filter_eq_nil_iff]
  rw [← hready, next?, List.getElem?_eq_none_iff]
  constructor
  · intro hle
    by_contra hne
    have hpos := List.length_pos_iff.mpr hne
    exact absurd hle (Nat.not_le.mpr (Nat.mod_lt _ hpos))
  · intro hnil
    rw [hnil]
    exact Nat.zero_le _

/-- Each worker that can go on may be the next one. -/
theorem exists_turn {crew : Crew n} {worker : Fin n}
    (h : crew.isReady worker = true) :
    ∃ turn : ℕ, crew.ready[turn % crew.ready.length]? = some worker := by
  have hmem : worker ∈ crew.ready := List.mem_filter.mpr ⟨List.mem_finRange worker, h⟩
  obtain ⟨turn, hlt, hworker⟩ := List.getElem_of_mem hmem
  refine ⟨turn, ?_⟩
  rw [Nat.mod_eq_of_lt hlt, List.getElem?_eq_getElem hlt, hworker]

/-- Workers that are not to halt go on until none of them can. -/
theorem next?_join (staff : Staff) (crew : Crew n) :
    (crew.join staff).next? staff.chance.turn = none := by
  unfold join
  fun_induction advance staff.chance.turn (fun _ ↦ false) crew with
  | case1 crew hhalts => exact absurd hhalts Bool.false_ne_true
  | case2 crew _ hnext => exact hnext
  | case3 crew _ worker hnext ih => exact ih

/-- Workers at rest have nothing in hand and nothing to take. -/
theorem join_at_rest (staff : Staff) (crew : Crew staff.size) :
    (crew.join staff).channel = [] ∧
      ∀ worker : Fin staff.size, (crew.join staff).duties.get worker = .free := by
  have hready := (next?_eq_none_iff _ _).mp (next?_join staff crew)
  have hrest (worker : Fin staff.size) :
      (crew.join staff).duties.get worker = .free ∧ (crew.join staff).channel = [] := by
    specialize hready worker
    unfold isReady at hready
    split at hready
    · cases hready
    · cases hready
    · next hduty => exact ⟨hduty, by simpa using hready⟩
  exact ⟨(hrest ⟨0, staff.size_pos⟩).2, fun worker ↦ (hrest worker).1⟩

theorem settled_join (staff : Staff) (crew : Crew staff.size) : (crew.join staff).pool.Settled := by
  obtain ⟨hchannel, hduties⟩ := join_at_rest staff crew
  refine ⟨?_, fun worker ↦ ?_⟩
  · simp [pool, inHand, hchannel, hduties, Duty.free, Duty.held]
  · change ((crew.join staff).duties.get worker).children = []
    rw [hduties worker]
    rfl

/-- A crew at rest that was sent edges is where some run of the pool with these edges ends. -/
theorem run_join (staff : Staff) (root : DocumentId) (edges : List Edge) :
    Pool.Run (Pool.start staff.size staff.chance.hash staff.shards root edges)
      ((sent staff root edges).join staff).pool :=
  (run_sent staff root edges).trans (run_advance _ _ _)

/-- The shards of a crew at rest split a whole that holds all edges and has no child left to
resolve. -/
theorem exists_whole_join (staff : Staff) (root : DocumentId) (edges : List Edge) :
    ∃ (whole : Shard) (handed : Multiset Edge),
      ((sent staff root edges).join staff).index.Splits whole ∧
        Ledger root edges handed 0 whole :=
  Pool.exists_whole (run_join staff root edges) (settled_join staff _)

/-! ### One worker -/

section Alone

/-- One worker has decided the first of the edges that were sent, and the last ones wait. To resolve
what it has in hand leads to what one index holds into which the first ones were entered. -/
def Continues (root : DocumentId) (sent decided waiting : List Edge) (whole : Shard) : Duty → Prop
  | .deciding edge => sent = decided ++ edge :: waiting ∧
      whole = ((Index.ofRoot root).insertAll decided).shard
  | .resolving children => sent = decided ++ waiting ∧
      Cascade.settle ⟨children, whole⟩ = ((Index.ofRoot root).insertAll decided).shard

/-- The edges are decided in the order in which they were sent. -/
def InOrder (root : DocumentId) (sent : List Edge) (crew : Crew n) : Prop :=
  ∃ (decided : List Edge) (whole : Shard), crew.index.Splits whole ∧
    ∀ worker : Fin n,
      Continues root sent decided crew.channel whole (crew.duties.get worker)

variable {sent : List Edge} {crew : Crew n}

theorem insertAll_concat (root : DocumentId) (edges : List Edge) (edge : Edge) :
    (Index.ofRoot root).insertAll (edges ++ [edge]) =
      ((Index.ofRoot root).insertAll edges).insert edge := by
  rw [Index.insertAll, List.foldl_append]
  rfl

theorem inOrder_ofRoot (staff : Staff) (root : DocumentId) :
    InOrder root [] (ofRoot staff root) := by
  refine ⟨[], _, .ofRoot _ _ root, fun worker ↦ ?_⟩
  rw [get_duties_ofRoot]
  exact ⟨rfl, Cascade.settle_nil _⟩

theorem InOrder.post (h : InOrder root sent crew) (edge : Edge) :
    InOrder root (sent ++ [edge]) (crew.post edge) := by
  obtain ⟨decided, whole, hsplits, hduty⟩ := h
  refine ⟨decided, whole, hsplits, fun worker ↦ ?_⟩
  specialize hduty worker
  dsimp only [Crew.post]
  cases hheld : crew.duties.get worker with
  | deciding held =>
    rw [hheld] at hduty
    exact ⟨by rw [hduty.1, List.append_assoc, List.cons_append], hduty.2⟩
  | resolving children =>
    rw [hheld] at hduty
    exact ⟨by rw [hduty.1, List.append_assoc], hduty.2⟩

variable (hone : n = 1)
include hone

theorem InOrder.move (h : InOrder root sent crew) (worker : Fin n) :
    InOrder root sent (crew.move worker) := by
  obtain ⟨channel, duties, index, moment⟩ := crew
  obtain ⟨decided, whole, hsplits, hduty⟩ := h
  have honly (other : Fin n) : other = worker := Fin.ext (by omega)
  have hset (duty : Duty) (other : Fin n) :
      (duties.set worker duty worker.isLt).get other = duty := by
    rw [honly other, get_set_self]
  specialize hduty worker
  simp only [Crew.move]
  split
  · next edge heq =>
    rw [heq] at hduty
    obtain ⟨hsent, rfl⟩ := hduty
    obtain ⟨hchildren, hnext⟩ := hsplits.arrive edge
    refine ⟨decided ++ [edge], _, hnext, fun other ↦ ?_⟩
    rw [hset]
    refine ⟨by rw [hsent, List.append_assoc, List.singleton_append], ?_⟩
    rw [insertAll_concat, hchildren]
    rfl
  · next child rest heq =>
    rw [heq] at hduty
    obtain ⟨hchildren, hnext⟩ := hsplits.resolve child
    refine ⟨decided, _, hnext, fun other ↦ ?_⟩
    rw [hset]
    refine ⟨hduty.1, ?_⟩
    rw [hchildren, ← Cascade.settle_cons, hduty.2]
  · next heq =>
    cases channel with
    | nil =>
      refine ⟨decided, whole, hsplits, fun other ↦ ?_⟩
      rw [honly other]
      exact hduty
    | cons edge rest =>
      rw [heq] at hduty
      refine ⟨decided, whole, hsplits, fun other ↦ ?_⟩
      rw [hset]
      exact ⟨hduty.1, by rw [← hduty.2, Cascade.settle_nil]⟩

theorem InOrder.advance (h : InOrder root sent crew) (turn : ℕ → Option ℕ)
    (halts : Crew n → Bool) : InOrder root sent (crew.advance turn halts) := by
  fun_induction Crew.advance turn halts crew with
  | case1 => exact h
  | case2 => exact h
  | case3 crew hgoes worker hnext ih => exact ih (h.move hone worker)

theorem InOrder.send (h : InOrder root sent crew) (staff : Staff) (edge : Edge) :
    InOrder root (sent ++ [edge]) (crew.send staff edge) :=
  ((h.advance hone _ _).post edge).advance hone _ _

end Alone

/-- One worker leaves what one index holds into which the edges were entered in the order in which
they were sent. -/
theorem splits_join_of_alone {staff : Staff} (halone : staff.workers ≤ 1) (root : DocumentId)
    (edges : List Edge) :
    ((sent staff root edges).join staff).index.Splits
      ((Index.ofRoot root).insertAll edges).shard := by
  have hone : staff.size = 1 := Nat.max_eq_right halone
  have hsent : InOrder root edges (sent staff root edges) := by
    induction edges using List.reverseRecOn with
    | nil => exact inOrder_ofRoot staff root
    | append_singleton edges edge ih =>
      rw [sent, sendAll_concat]
      exact ih.send hone staff edge
  obtain ⟨decided, whole, hsplits, hduty⟩ := hsent.advance hone staff.chance.turn fun _ ↦ false
  obtain ⟨hchannel, hduties⟩ := join_at_rest staff (sent staff root edges)
  specialize hduty ⟨0, staff.size_pos⟩
  rw [← join, hduties, hchannel] at hduty
  obtain ⟨hdecided, hwhole⟩ := hduty
  rw [List.append_nil] at hdecided
  rw [Cascade.settle_nil] at hwhole
  rw [hdecided, ← hwhole, ← hdecided]
  exact hsplits

/-! ### Other shards -/

/-- Crews that have come to the same, though ids may be spread otherwise over their shards. -/
structure Alike (first second : Crew n) : Prop where
  channel : first.channel = second.channel
  duties : first.duties = second.duties
  moment : first.moment = second.moment
  split : ∃ whole, first.index.Splits whole ∧ second.index.Splits whole

namespace Alike

variable {first second : Crew n} (h : Alike first second)
include h

theorem isReady_eq (worker : Fin n) : first.isReady worker = second.isReady worker := by
  unfold isReady
  rw [h.channel, h.duties]

theorem next?_eq (turn : ℕ → Option ℕ) : first.next? turn = second.next? turn := by
  have hready : first.ready = second.ready := List.filter_congr fun worker _ ↦ h.isReady_eq worker
  rw [next?, next?, hready, h.moment]

theorem post (edge : Edge) : Alike (first.post edge) (second.post edge) where
  channel := congrArg (· ++ [edge]) h.channel
  duties := h.duties
  moment := h.moment
  split := h.split

theorem move (worker : Fin n) : Alike (first.move worker) (second.move worker) := by
  obtain ⟨channel, duties, index, moment⟩ := first
  obtain ⟨_, _, index', _⟩ := second
  obtain ⟨rfl, rfl, rfl, whole, hsplits, hsplits'⟩ := h
  simp only [Crew.move]
  split
  · next edge _ =>
    obtain ⟨hchildren, hnext⟩ := hsplits.arrive edge
    obtain ⟨hchildren', hnext'⟩ := hsplits'.arrive edge
    exact ⟨rfl, by rw [hchildren, hchildren'], rfl, _, hnext, hnext'⟩
  · next child rest _ =>
    obtain ⟨hchildren, hnext⟩ := hsplits.resolve child
    obtain ⟨hchildren', hnext'⟩ := hsplits'.resolve child
    exact ⟨rfl, by rw [hchildren, hchildren'], rfl, _, hnext, hnext'⟩
  · cases channel with
    | nil => exact ⟨rfl, rfl, rfl, whole, hsplits, hsplits'⟩
    | cons edge rest => exact ⟨rfl, rfl, rfl, whole, hsplits, hsplits'⟩

theorem advance (turn : ℕ → Option ℕ) (halts : Crew n → Bool)
    (hhalts : ∀ first second, Alike first second → halts first = halts second) :
    Alike (first.advance turn halts) (second.advance turn halts) := by
  fun_induction Crew.advance turn halts first generalizing second with
  | case1 first hhalt =>
    rw [advance_of_halts ((hhalts _ _ h).symm.trans hhalt)]
    exact h
  | case2 first hgoes hnext =>
    rw [advance_of_next?_eq_none ((h.next?_eq turn).symm.trans hnext)]
    exact h
  | case3 first hgoes worker hnext ih =>
    rw [advance_of_next?_eq_some (hhalts _ _ h ▸ hgoes) ((h.next?_eq turn).symm.trans hnext)]
    exact ih (h.move worker)

end Alike

end Crew

/-- The same workers, by whose luck ids are spread otherwise over the shards. -/
def Staff.rehash (hash : DocumentId → UInt64) (staff : Staff) : Staff :=
  { staff with chance := { staff.chance with hash := hash } }

/-- The workers take the same turns, or are one each, or no id that is not to be retained is named
as a parent. -/
def Staff.Interchangeable (edges : List Edge) (first second : Staff) : Prop :=
  second = first.rehash second.chance.hash ∨ (first.workers ≤ 1 ∧ second.workers ≤ 1) ∨
    Accurate edges

namespace Crew

theorem Alike.send {n : ℕ} {first second : Crew n} (h : Alike first second) (staff : Staff)
    (hash : DocumentId → UInt64) (edge : Edge) :
    Alike (first.send staff edge) (second.send (staff.rehash hash) edge) := by
  have hroom := h.advance staff.chance.turn (fun crew ↦ crew.channel.length < staff.capacity)
    fun first second halike ↦ by rw [halike.channel]
  have hpass := (hroom.post edge).advance staff.chance.turn
    (fun crew ↦ (staff.chance.turn crew.moment).isNone)
    fun first second halike ↦ by rw [halike.moment]
  exact { hpass with moment := congrArg (· + 1) hpass.moment }

theorem alike_sent (staff : Staff) (hash : DocumentId → UInt64) (root : DocumentId)
    (edges : List Edge) :
    Alike (sent staff root edges) (sent (staff.rehash hash) root edges) := by
  induction edges using List.reverseRecOn with
  | nil => exact ⟨rfl, rfl, rfl, _, .ofRoot _ _ root, .ofRoot _ _ root⟩
  | append_singleton edges edge ih =>
    rw [sent, sent, sendAll_concat, sendAll_concat]
    exact ih.send staff hash edge

/-- Staffs that can stand in for each other leave the same edges parked, and hold as many ids. -/
theorem join_eq_of_interchangeable {first second : Staff} {edges : List Edge}
    (h : Staff.Interchangeable edges first second) (root : DocumentId) :
    ((sent first root edges).join first).index.drain.1 =
        ((sent second root edges).join second).index.drain.1 ∧
      ((sent first root edges).join first).index.kept =
        ((sent second root edges).join second).index.kept := by
  rcases h with hsame | ⟨hfirst, hsecond⟩ | haccurate
  · rw [hsame]
    obtain ⟨-, -, -, whole, hsplits, hsplits'⟩ :=
      (alike_sent first second.chance.hash root edges).advance first.chance.turn
        (fun _ ↦ false) fun _ _ _ ↦ rfl
    exact ⟨hsplits.drain_eq.trans hsplits'.drain_eq.symm,
      hsplits.kept_eq.trans hsplits'.kept_eq.symm⟩
  · have hsplits := splits_join_of_alone hfirst root edges
    have hsplits' := splits_join_of_alone hsecond root edges
    exact ⟨hsplits.drain_eq.trans hsplits'.drain_eq.symm,
      hsplits.kept_eq.trans hsplits'.kept_eq.symm⟩
  · obtain ⟨hdrain, hkept⟩ := Pool.settled_eq_insertAll haccurate (run_join first root edges)
      (settled_join first _)
    obtain ⟨hdrain', hkept'⟩ := Pool.settled_eq_insertAll haccurate (run_join second root edges)
      (settled_join second _)
    exact ⟨hdrain.trans hdrain'.symm, hkept.trans hkept'.symm⟩

end Crew

end TreeAudit.Reachability
