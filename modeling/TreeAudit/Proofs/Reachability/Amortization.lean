import TreeAudit.Proofs.Reachability.Sharding
import Mathlib.Logic.Relation
import Mathlib.Tactic.Abel

/-!
How often the loop of a cascade turns, over all edges that are entered. A cascade feeds its own
work list: what it pops may bring any number of parked children, along cycles and under an id that
has been resolved before. What bounds it is where the edges are. Between two turns (`Moment`) each
edge that has been entered is parked, on the work list or popped, those on the work list and those
popped being what the ledger of the shards has as handed out (`Balanced`). An arriving edge is added
to the parked ones or to the work list (`Balanced.enter`); a turn moves one edge from the work list
to those popped, and the edges parked under its child to the work list (`Balanced.turn`). No turn
puts an edge back, so an edge is popped at most once for each time it is entered.

The loop itself carries children only. A moment writes out the parents under which they came and
the edges popped so far; with both left out, its turns are those of the loop (`settled_turn`), so
what the loop makes of any moment of a run is the index into which the same edges were entered
(`Reached.settled_eq`). Each turn takes one edge from those on the work list or parked
(`outstanding_turn`), so the loop ends from every moment, also from one that no run reaches
(`exists_idle`).
-/

set_option autoImplicit false
set_option relaxedAutoImplicit false

namespace TreeAudit.Reachability

theorem Child.map_child_under (parent : DocumentId) (children : List Child) :
    (children.map (Child.under parent)).map Edge.child = children := by
  simp [Function.comp_def]

namespace Sharded

/-- No waiting list is empty in any shard, and nothing waits in any of them under a reachable id. -/
structure Tidy (index : Sharded) : Prop where
  waiting_ne_nil : ∀ shard ∈ index.shards, ∀ id : DocumentId, shard.pending[id]? ≠ some []
  not_mem_pending : ∀ id ∈ index.held, ∀ shard ∈ index.shards, id ∉ shard.pending

theorem Splits.tidy {index : Sharded} {whole : Shard} (h : index.Splits whole)
    (htidy : whole.Tidy) : index.Tidy where
  waiting_ne_nil := by
    intro shard hshard id
    obtain ⟨i, hi, rfl⟩ := Array.mem_iff_getElem.mp hshard
    rw [h.pending i hi id]
    split_ifs
    · exact htidy.waiting_ne_nil id
    · simp
  not_mem_pending := by
    intro id hid shard hshard
    obtain ⟨i, hi, rfl⟩ := Array.mem_iff_getElem.mp hshard
    rw [h.held_perm.mem_iff, Std.HashSet.mem_toList] at hid
    have hnot := htidy.not_mem_pending id hid
    rw [Std.HashMap.mem_iff_isSome_getElem?] at hnot ⊢
    rw [h.pending i hi id]
    split_ifs
    · exact hnot
    · simp

end Sharded

/-- An index while edges are entered, between two turns of the loop: the edges that the loop has
popped, the latest first, and those on its work list, the next first. -/
structure Moment where
  popped : List Edge
  work : List Edge
  index : Sharded

namespace Moment

/-- Before any edge is entered. -/
def start (hash : DocumentId → UInt64) (count : ℕ) (root : DocumentId) : Moment :=
  ⟨[], [], .ofRoot hash count root⟩

/-- An edge arrives. It is put on the work list if its parent is reachable. -/
def enter (edge : Edge) (moment : Moment) : Moment :=
  let visited := moment.index.visit edge.parent fun shard ↦ shard.arrive edge
  ⟨moment.popped, visited.1.map (Child.under edge.parent), visited.2⟩

/-- One turn of the loop: the next edge is popped and its child resolved, and what was parked under
the child goes on the work list. -/
def turn (moment : Moment) : Option Moment :=
  match moment.work with
  | [] => none
  | edge :: rest =>
    let visited := moment.index.visit edge.child.id fun shard ↦ shard.resolve edge.child
    some ⟨edge :: moment.popped, visited.1.map (Child.under edge.child.id) ++ rest, visited.2⟩

/-- Any number of turns. -/
abbrev Turns : Moment → Moment → Prop :=
  Relation.ReflTransGen fun moment next ↦ moment.turn = some next

/-- The moments of a run that enters edges one after the other, with those entered so far. The next
one is entered when the loop has nothing left to do. -/
inductive Reached (hash : DocumentId → UInt64) (count : ℕ) (root : DocumentId) :
    List Edge → Moment → Prop
  | start : Reached hash count root [] (.start hash count root)
  | enter {entered : List Edge} {moment : Moment} (edge : Edge)
      (h : Reached hash count root entered moment) (hidle : moment.work = []) :
      Reached hash count root (entered ++ [edge]) (moment.enter edge)
  | turn {entered : List Edge} {moment next : Moment}
      (h : Reached hash count root entered moment) (hturn : moment.turn = some next) :
      Reached hash count root entered next

variable {moment next : Moment} {hash : DocumentId → UInt64} {count : ℕ} {root : DocumentId}
  {entered : List Edge}

theorem turn_eq_some_iff : moment.turn = some next ↔ ∃ edge rest, moment.work = edge :: rest ∧
    next = ⟨edge :: moment.popped,
      (moment.index.visit edge.child.id fun shard ↦ shard.resolve edge.child).1.map
        (Child.under edge.child.id) ++ rest,
      (moment.index.visit edge.child.id fun shard ↦ shard.resolve edge.child).2⟩ := by
  unfold turn
  cases moment.work with
  | nil => simp
  | cons edge rest => simp [eq_comm]

theorem turn_eq_none_iff : moment.turn = none ↔ moment.work = [] := by
  unfold turn
  cases moment.work <;> simp

section Splits

variable {whole : Shard} {edge : Edge}

/-- An edge whose parent is not reachable is parked, and the loop has nothing to do. -/
theorem enter_of_not_mem (h : moment.index.Splits whole) (hparent : edge.parent ∉ whole.reachable) :
    (moment.enter edge).work = [] ∧ (moment.enter edge).index.Splits (whole.park edge) := by
  obtain ⟨hwork, hsplits⟩ := h.arrive edge
  rw [Shard.arrive, if_neg hparent] at hwork hsplits
  exact ⟨by rw [enter, hwork, List.map_nil], hsplits⟩

theorem enter_of_mem (h : moment.index.Splits whole) (hparent : edge.parent ∈ whole.reachable) :
    (moment.enter edge).work = [edge] ∧ (moment.enter edge).index.Splits whole := by
  obtain ⟨hwork, hsplits⟩ := h.arrive edge
  rw [Shard.arrive, if_pos hparent] at hwork hsplits
  exact ⟨by rw [enter, hwork]; rfl, hsplits⟩

end Splits

/-! ### The loop of the index -/

/-- The index when the loop has done what is on the work list. -/
def settled (moment : Moment) : Sharded :=
  Sharded.settle (moment.work.map Edge.child) moment.index

theorem settled_of_idle (hidle : moment.work = []) : moment.settled = moment.index := by
  rw [settled, hidle, List.map_nil, Sharded.settle]

theorem settled_enter (edge : Edge) (moment : Moment) :
    (moment.enter edge).settled = moment.index.insert edge := by
  rw [settled, enter, Child.map_child_under]
  rfl

/-- A turn is what the loop does before it goes on. -/
theorem settled_turn (hturn : moment.turn = some next) : next.settled = moment.settled := by
  obtain ⟨edge, rest, hwork, rfl⟩ := turn_eq_some_iff.mp hturn
  rw [settled, settled, hwork, List.map_append, Child.map_child_under, List.map_cons,
    Sharded.settle]

theorem Turns.settled_eq (h : moment.Turns next) : next.settled = moment.settled := by
  induction h with
  | refl => rfl
  | tail _ hturn ih => rw [settled_turn hturn, ih]

/-- What the loop makes of a moment is the index with the edges entered so far. -/
theorem Reached.settled_eq (h : Reached hash count root entered moment) :
    moment.settled = (Sharded.ofRoot hash count root).insertAll entered := by
  induction h with
  | start => exact settled_of_idle rfl
  | enter edge _ hidle ih =>
    rw [settled_enter, ← settled_of_idle hidle, ih, Sharded.insertAll, Sharded.insertAll,
      List.foldl_append]
    rfl
  | turn _ hturn ih => rw [settled_turn hturn, ih]

/-! ### The end of the loop -/

/-- The edges parked or waiting for their turn. -/
def outstanding (moment : Moment) : ℕ := moment.work.length + moment.index.pending

/-- A turn takes one edge from those outstanding and adds it to those popped. -/
theorem outstanding_turn (hturn : moment.turn = some next) :
    next.outstanding + 1 = moment.outstanding ∧ next.popped.length = moment.popped.length + 1 := by
  obtain ⟨edge, rest, hwork, rfl⟩ := turn_eq_some_iff.mp hturn
  have hresolve := moment.index.parked_visit_resolve edge.child
  simp only [outstanding, Sharded.pending, hwork, List.length_append, List.length_map,
    List.length_cons, and_true]
  omega

theorem Turns.outstanding_add_popped (h : moment.Turns next) :
    next.outstanding + next.popped.length = moment.outstanding + moment.popped.length := by
  induction h with
  | refl => rfl
  | tail _ hturn ih =>
    obtain ⟨houtstanding, hpopped⟩ := outstanding_turn hturn
    omega

/-- From every moment the loop comes to its end. -/
theorem exists_idle (moment : Moment) : ∃ final, moment.Turns final ∧ final.work = [] := by
  induction hsize : moment.outstanding using Nat.strong_induction_on generalizing moment with
  | _ size ih =>
    cases hturn : moment.turn with
    | none => exact ⟨moment, .refl, turn_eq_none_iff.mp hturn⟩
    | some next =>
      obtain ⟨hless, -⟩ := outstanding_turn hturn
      obtain ⟨final, hturns, hidle⟩ := ih next.outstanding (by omega) next rfl
      exact ⟨final, hturns.head hturn, hidle⟩

theorem Reached.turns (h : Reached hash count root entered moment) (hturns : moment.Turns next) :
    Reached hash count root entered next := by
  induction hturns with
  | refl => exact h
  | tail _ hturn ih => exact ih.turn hturn

/-- Every list of edges can be entered to its end. -/
theorem exists_reached_idle (hash : DocumentId → UInt64) (count : ℕ) (root : DocumentId)
    (edges : List Edge) : ∃ final, Reached hash count root edges final ∧ final.work = [] := by
  induction edges using List.reverseRecOn with
  | nil => exact ⟨_, .start, rfl⟩
  | append_singleton entered edge ih =>
    obtain ⟨moment, hreached, hidle⟩ := ih
    obtain ⟨final, hturns, hfinal⟩ := exists_idle (moment.enter edge)
    exact ⟨final, (hreached.enter edge hidle).turns hturns, hfinal⟩

/-! ### Where the edges are -/

/-- The shards split a whole whose ledger balances: handed out are the edges popped and those on
the work list. -/
def Balanced (root : DocumentId) (entered : Multiset Edge) (moment : Moment) : Prop :=
  ∃ whole, moment.index.Splits whole ∧
    Ledger root entered (moment.popped + moment.work) (moment.work.map Edge.child : List Child)
      whole

theorem balanced_start (hash : DocumentId → UInt64) (count : ℕ) (root : DocumentId) :
    Balanced root 0 (.start hash count root) :=
  ⟨_, .ofRoot hash count root, .ofRoot root⟩

theorem Balanced.enter {arrived : Multiset Edge} (h : Balanced root arrived moment)
    (hidle : moment.work = []) (edge : Edge) :
    Balanced root (edge ::ₘ arrived) (moment.enter edge) := by
  obtain ⟨whole, hsplits, hledger⟩ := h
  obtain ⟨hwork, hsplits'⟩ := hsplits.arrive edge
  have hledger' := hledger.arrive edge
  rw [hidle, List.map_nil, Multiset.coe_nil, Multiset.coe_nil, add_zero, add_zero,
    ← hwork] at hledger'
  refine ⟨_, hsplits', ?_⟩
  rw [Moment.enter, Child.map_child_under]
  exact hledger'

theorem Balanced.turn {arrived : Multiset Edge} (h : Balanced root arrived moment)
    (hturn : moment.turn = some next) : Balanced root arrived next := by
  obtain ⟨edge, rest, hwork, rfl⟩ := turn_eq_some_iff.mp hturn
  obtain ⟨whole, hsplits, hledger⟩ := h
  obtain ⟨hchildren, hsplits'⟩ := hsplits.resolve edge.child
  rw [hwork, List.map_cons, ← Multiset.cons_coe edge.child] at hledger
  have hledger' := hledger.resolve
  rw [← hchildren, Multiset.coe_add _ (rest.map Edge.child)] at hledger'
  refine ⟨_, hsplits', ?_⟩
  rw [List.map_append, Child.map_child_under]
  have hhanded (released : List Edge) :
      (moment.popped + (edge :: rest : List Edge) + released : Multiset Edge) =
        (edge :: moment.popped : List Edge) + (released ++ rest : List Edge) := by
    rw [← Multiset.coe_add, ← Multiset.cons_coe, ← Multiset.cons_coe]
    simp only [← Multiset.singleton_add]
    abel
  rwa [hhanded] at hledger'

theorem Reached.balanced (h : Reached hash count root entered moment) :
    Balanced root entered moment := by
  induction h with
  | start => exact balanced_start hash count root
  | @enter entered moment edge _ hidle ih =>
    have hperm : ((entered ++ [edge] : List Edge) : Multiset Edge) = edge ::ₘ entered :=
      Multiset.coe_eq_coe.mpr (List.perm_append_singleton edge entered)
    rw [hperm]
    exact ih.enter hidle edge
  | turn _ hturn ih => exact ih.turn hturn

theorem Reached.tidy (h : Reached hash count root entered moment) : moment.index.Tidy := by
  obtain ⟨whole, hsplits, hledger⟩ := h.balanced
  exact hsplits.tidy hledger.tidy

theorem Reached.account_eq (h : Reached hash count root entered moment) :
    (entered : Multiset Edge) = moment.popped + moment.work + moment.index.edges := by
  obtain ⟨whole, hsplits, hledger⟩ := h.balanced
  rw [hledger.accounted, hsplits.edges_eq]

theorem Reached.outstanding_add_popped (h : Reached hash count root entered moment) :
    moment.outstanding + moment.popped.length = entered.length := by
  have hcard := congrArg Multiset.card h.account_eq
  simp only [Multiset.card_add, Multiset.coe_card, Sharded.edges, List.length_map] at hcard
  rw [hcard, outstanding, Sharded.pending, Sharded.parked]
  omega

/-- At every moment of a run, whatever the edges ask for, no waiting list is empty, nothing waits
under a reachable id, and the edges entered are those popped, those on the work list and those
parked, each as often as it was entered; so none is popped more often, and the loop has yet to make
of the moment what the index makes of these edges. From every moment, reached or not, the loop ends,
and whatever it pops on the way was outstanding. In a run every list of edges can be entered, and
when the loop then has nothing left to do, its turns, one for each edge popped, are as many as the
edges less those that are pending. -/
theorem popped_at_most_once (hash : DocumentId → UInt64) (count : ℕ) (root : DocumentId) :
    (∀ entered moment, Reached hash count root entered moment →
      moment.index.Tidy ∧
        (entered : Multiset Edge) = moment.popped + moment.work + moment.index.edges ∧
        (moment.popped : Multiset Edge) ≤ entered ∧
        moment.settled = (Sharded.ofRoot hash count root).insertAll entered) ∧
      (∀ moment : Moment,
        (∀ next, moment.Turns next →
          next.outstanding + next.popped.length = moment.outstanding + moment.popped.length) ∧
        ∃ final, moment.Turns final ∧ final.work = [] ∧ final.index = moment.settled) ∧
      ∀ edges,
        (∃ final, Reached hash count root edges final ∧ final.work = []) ∧
        ∀ final, Reached hash count root edges final → final.work = [] →
          final.index = (Sharded.ofRoot hash count root).insertAll edges ∧
            final.popped.length ≤ edges.length ∧
            final.index.pending + final.popped.length = edges.length := by
  refine ⟨fun entered moment h ↦ ?_, fun moment ↦ ?_, fun edges ↦ ?_⟩
  · have hpopped : (moment.popped : Multiset Edge) ≤ entered := by
      rw [h.account_eq, add_assoc]
      exact Multiset.le_add_right _ _
    exact ⟨h.tidy, h.account_eq, hpopped, h.settled_eq⟩
  · obtain ⟨final, hturns, hidle⟩ := exists_idle moment
    have hindex : final.index = moment.settled := by
      rw [← settled_of_idle hidle, hturns.settled_eq]
    exact ⟨fun next ↦ Turns.outstanding_add_popped, final, hturns, hidle, hindex⟩
  · refine ⟨exists_reached_idle hash count root edges, fun final h hidle ↦ ?_⟩
    have hindex : final.index = (Sharded.ofRoot hash count root).insertAll edges := by
      rw [← settled_of_idle hidle, h.settled_eq]
    have hcount := h.outstanding_add_popped
    rw [outstanding, hidle, List.length_nil, zero_add] at hcount
    exact ⟨hindex, by omega, hcount⟩

/-- Two ids that name each other as parents, one of them twice, and the edge that connects them,
entered last. None is to be retained. -/
def cycleAndTwins : List Edge :=
  [⟨⟨"b"⟩, ⟨"a"⟩, false⟩, ⟨⟨"b"⟩, ⟨"a"⟩, false⟩, ⟨⟨"a"⟩, ⟨"b"⟩, false⟩, ⟨⟨"a"⟩, ⟨"r"⟩, false⟩]

theorem exists_reached_cycleAndTwins :
    ∃ moment, Reached (fun id ↦ id.text.length.toUInt64) 3 ⟨"r"⟩ cycleAndTwins moment ∧
      moment.popped = [⟨⟨"a"⟩, ⟨"r"⟩, false⟩] ∧
      moment.work = [⟨⟨"b"⟩, ⟨"a"⟩, false⟩, ⟨⟨"b"⟩, ⟨"a"⟩, false⟩] := by
  let hash : DocumentId → UInt64 := fun id ↦ id.text.length.toUInt64
  let twin : Edge := ⟨⟨"b"⟩, ⟨"a"⟩, false⟩
  let closing : Edge := ⟨⟨"a"⟩, ⟨"b"⟩, false⟩
  let connecting : Edge := ⟨⟨"a"⟩, ⟨"r"⟩, false⟩
  let whole : Shard := Shard.empty.mark ⟨"r"⟩
  have hreachable (id : DocumentId) : id ∈ whole.reachable ↔ ⟨"r"⟩ = id := by
    have hempty : id ∉ Shard.empty.reachable := Std.HashSet.not_mem_empty
    exact Std.HashSet.mem_insert.trans ((or_iff_left hempty).trans beq_iff_eq)
  have hwaiting (id : DocumentId) : whole.waiting id = [] := Std.HashMap.getD_empty
  have htwin : twin.parent ∉ whole.reachable := (hreachable _).not.mpr (by decide)
  have hclosing : closing.parent ∉ whole.reachable := (hreachable _).not.mpr (by decide)
  have hconnecting : connecting.parent ∈ whole.reachable := (hreachable _).mpr rfl
  have hstart : (start hash 3 ⟨"r"⟩).index.Splits whole := .ofRoot hash 3 ⟨"r"⟩
  obtain ⟨hidle₁, hsplits₁⟩ := enter_of_not_mem hstart htwin
  obtain ⟨hidle₂, hsplits₂⟩ := enter_of_not_mem hsplits₁ htwin
  obtain ⟨hidle₃, hsplits₃⟩ := enter_of_not_mem hsplits₂ hclosing
  obtain ⟨hwork, hsplits⟩ := enter_of_mem hsplits₃ hconnecting
  have hreached : Reached hash 3 ⟨"r"⟩ cycleAndTwins _ :=
    (((Reached.start.enter twin rfl).enter twin hidle₁).enter closing hidle₂).enter connecting
      hidle₃
  have hreleased : (((whole.park twin).park twin).park closing).waiting connecting.child.id =
      [twin.child, twin.child] := by
    simp only [Shard.waiting_park, hwaiting]
    decide
  obtain ⟨hchildren, -⟩ := hsplits.resolve connecting.child
  rw [Shard.resolve_fst, hreleased] at hchildren
  have hturn := hreached.turn (turn_eq_some_iff.mpr ⟨_, _, hwork, rfl⟩)
  rw [hchildren] at hturn
  exact ⟨_, hturn, rfl, rfl⟩

/-- After the first turn the connecting edge is popped, the twins are on the work list, and the edge
that closes the cycle is still parked. -/
theorem popped_at_most_once_cycleAndTwins :
    ∃ moment, Reached (fun id ↦ id.text.length.toUInt64) 3 ⟨"r"⟩ cycleAndTwins moment ∧
      moment.popped = [⟨⟨"a"⟩, ⟨"r"⟩, false⟩] ∧
      moment.work = [⟨⟨"b"⟩, ⟨"a"⟩, false⟩, ⟨⟨"b"⟩, ⟨"a"⟩, false⟩] ∧
      moment.index.edges = {⟨⟨"a"⟩, ⟨"b"⟩, false⟩} := by
  obtain ⟨moment, hreached, hpopped, hwork⟩ := exists_reached_cycleAndTwins
  obtain ⟨hmoments, -, -⟩ := popped_at_most_once (fun id ↦ id.text.length.toUInt64) 3 ⟨"r"⟩
  obtain ⟨-, haccount, -, -⟩ := hmoments _ _ hreached
  have hentered : (cycleAndTwins : Multiset Edge) =
      moment.popped + moment.work + {⟨⟨"a"⟩, ⟨"b"⟩, false⟩} := by
    rw [hpopped, hwork]
    decide
  exact ⟨moment, hreached, hpopped, hwork, add_left_cancel (haccount.symm.trans hentered)⟩

end Moment

end TreeAudit.Reachability
