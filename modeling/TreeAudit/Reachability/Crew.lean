import TreeAudit.Numeric.Natural
import TreeAudit.Reachability.Sharded

/-!
Workers that share a sharded index. Edges come over a channel with room for so many, first come
first served. A worker takes an edge, decides it in the shard of its parent, and then resolves the
children it is handed one by one, each in its own shard. Between two steps of a worker any number
of steps of the others may happen, and before the sender goes on any number of steps of all of
them: whose turn it is is left to chance. Every step uses up one unit of load, so workers that are
left to themselves come to rest.
-/

set_option autoImplicit false
set_option relaxedAutoImplicit false

namespace TreeAudit.Reachability

/-- What nothing decides but chance: how ids are spread over the shards, and whose turn it is at
each moment. It is the sender's, or that of a worker that can go on, these being counted round. -/
structure Chance where
  hash : DocumentId → UInt64
  turn : Nat → Option Nat

/-- The first worker is done with every edge before the next one is sent. -/
def Chance.prompt : Chance := ⟨Hashable.hash, fun _ ↦ some 0⟩

/-- The workers that share an index, how many edges may wait for them, and their luck. -/
structure Staff where
  workers : Nat := 1
  room : Nat := 1
  chance : Chance := .prompt

namespace Staff

/-- There is one worker at least. -/
def size (staff : Staff) : Nat := max staff.workers 1

theorem size_pos (staff : Staff) : 0 < staff.size := Nat.le_max_right _ _

/-- There is room for one edge at least. -/
def capacity (staff : Staff) : Nat := max staff.room 1

def shardsPerWorker : Nat := 16

def fewestShards : Nat := 64

/-- The shards of the index. Their number grows with that of the workers as far as it fits 64
bits. -/
def shards (staff : Staff) : Nat :=
  max (min (staff.size * shardsPerWorker) (UInt64.size - 1)) fewestShards

end Staff

/-- What a worker has in hand. -/
inductive Duty where
  /-- An edge, whose parent it has not looked up yet. -/
  | deciding (edge : Edge)
  /-- Children to resolve, the next one first. With none left it takes an edge. -/
  | resolving (children : List Child)

namespace Duty

def free : Duty := resolving []

/-- Two units for an edge and one for a child. -/
def load : Duty → Nat
  | deciding _ => 2
  | resolving children => children.length

end Duty

/-- The edges that no worker has taken, first the one that came first, what the workers have in
hand, the index, and how many turns there have been. -/
structure Crew (n : Nat) where
  channel : List Edge
  duties : Vector Duty n
  index : Sharded
  moment : Nat

namespace Crew

variable {n : Nat}

def ofRoot (staff : Staff) (root : DocumentId) : Crew staff.size where
  channel := []
  duties := .replicate staff.size .free
  index := .ofRoot staff.chance.hash staff.shards root
  moment := 0

/-- A worker with nothing in hand waits for an edge. -/
def isReady (crew : Crew n) (worker : Fin n) : Bool :=
  match crew.duties.get worker with
  | .deciding _ => true
  | .resolving (_ :: _) => true
  | .resolving [] => !crew.channel.isEmpty

/-- The workers that can go on. -/
def ready (crew : Crew n) : List (Fin n) := (List.finRange n).filter crew.isReady

/-- One step of a worker, with at most one shard locked. -/
def move (worker : Fin n) (crew : Crew n) : Crew n :=
  match crew with
  | ⟨channel, duties, index, moment⟩ =>
    match duties.get worker with
    | .deciding edge =>
      let (children, index) := index.visit edge.parent fun shard ↦ shard.arrive edge
      ⟨channel, duties.set worker (.resolving children) worker.isLt, index, moment + 1⟩
    | .resolving (child :: rest) =>
      let (children, index) := index.visit child.id fun shard ↦ shard.resolve child
      ⟨channel, duties.set worker (.resolving (children ++ rest)) worker.isLt, index, moment + 1⟩
    | .resolving [] =>
      match channel with
      | edge :: rest => ⟨rest, duties.set worker (.deciding edge) worker.isLt, index, moment + 1⟩
      | [] => ⟨[], duties, index, moment + 1⟩

/-- Three units for an edge that no worker has taken, one for an edge parked, and what the workers
have in hand. -/
def load (crew : Crew n) : Nat :=
  3 * crew.channel.length + Numeric.total (crew.duties.toList.map Duty.load) + crew.index.parked

private theorem total_map_load_set (duties : List Duty) (i : Nat) (h : i < duties.length)
    (duty : Duty) :
    Numeric.total ((duties.set i duty).map Duty.load) + duties[i].load =
      Numeric.total (duties.map Duty.load) + duty.load := by
  unfold Numeric.total
  induction duties generalizing i with
  | nil => simp at h
  | cons first rest ih =>
    cases i with
    | zero =>
      simp only [List.set_cons_zero, List.map_cons, List.foldr_cons, List.getElem_cons_zero]
      omega
    | succ i =>
      have := ih i (by simpa using h)
      simp only [List.set_cons_succ, List.map_cons, List.foldr_cons, List.getElem_cons_succ]
      omega

/-- What the workers have in hand after one of them has put another thing in place of its own. -/
theorem total_load_set (duties : Vector Duty n) (worker : Fin n) (duty : Duty) :
    Numeric.total ((duties.set worker duty worker.isLt).toList.map Duty.load) +
        (duties.get worker).load =
      Numeric.total (duties.toList.map Duty.load) + duty.load := by
  have h := total_map_load_set duties.toList worker (by simp) duty
  rw [← Vector.toList_set worker.isLt, Vector.getElem_toList] at h
  exact h

theorem load_move {crew : Crew n} {worker : Fin n} (h : crew.isReady worker = true) :
    (crew.move worker).load + 1 = crew.load := by
  obtain ⟨channel, duties, index, moment⟩ := crew
  simp only [isReady] at h
  have hset := total_load_set duties worker
  simp only [move, load]
  split
  · next edge hduty =>
    have harrive := index.parked_visit_arrive edge
    specialize hset (.resolving (index.visit edge.parent fun shard ↦ shard.arrive edge).1)
    simp only [hduty, Duty.load] at hset ⊢
    omega
  · next child rest hduty =>
    have hresolve := index.parked_visit_resolve child
    specialize hset
      (.resolving ((index.visit child.id fun shard ↦ shard.resolve child).1 ++ rest))
    simp only [hduty, Duty.load, List.length_append, List.length_cons] at hset ⊢
    omega
  · next hduty =>
    cases channel with
    | nil => simp [hduty] at h
    | cons edge rest =>
      specialize hset (.deciding edge)
      simp only [hduty, Duty.load, List.length_cons, List.length_nil] at hset ⊢
      omega

section Turns

variable (turn : Nat → Option Nat)

/-- The worker whose turn it is, the first that can go on if it is the sender's; none when all
workers are at rest. -/
def next? (crew : Crew n) : Option (Fin n) :=
  let ready := crew.ready
  ready[(turn crew.moment).getD 0 % ready.length]?

theorem isReady_of_next? {crew : Crew n} {worker : Fin n} (h : crew.next? turn = some worker) :
    crew.isReady worker = true :=
  (List.mem_filter.mp (List.mem_of_getElem? h)).2

/-- Lets the workers go on until they are to halt or are at rest. -/
def advance (halts : Crew n → Bool) (crew : Crew n) : Crew n :=
  if halts crew then crew
  else
    match _h : crew.next? turn with
    | none => crew
    | some worker => advance halts (crew.move worker)
termination_by crew.load
decreasing_by
  have := load_move (isReady_of_next? turn _h)
  omega

variable {turn} {halts : Crew n → Bool} {crew : Crew n}

theorem advance_of_halts (h : halts crew = true) : crew.advance turn halts = crew := by
  rw [advance, if_pos h]

theorem advance_of_next?_eq_none (h : crew.next? turn = none) :
    crew.advance turn halts = crew := by
  rw [advance]
  split
  · rfl
  · split
    · rfl
    · next hnext => cases h.symm.trans hnext

theorem advance_of_next?_eq_some (hgoes : ¬ halts crew = true) {worker : Fin n}
    (h : crew.next? turn = some worker) :
    crew.advance turn halts = (crew.move worker).advance turn halts := by
  rw [advance, if_neg hgoes]
  split
  · next hnext => cases h.symm.trans hnext
  · next hnext =>
    obtain rfl := Option.some.inj (h.symm.trans hnext)
    rfl

variable (turn)

/-- Lets the workers go on until it is the sender's turn, which that uses up. -/
def pass (crew : Crew n) : Crew n :=
  let crew := crew.advance turn fun crew ↦ (turn crew.moment).isNone
  { crew with moment := crew.moment + 1 }

end Turns

/-- Sends an edge as soon as there is room for it. -/
def send (staff : Staff) (edge : Edge) (crew : Crew n) : Crew n :=
  let crew := crew.advance staff.chance.turn fun crew ↦ crew.channel.length < staff.capacity
  { crew with channel := crew.channel ++ [edge] }.pass staff.chance.turn

/-- No more edges come, and the sender waits until all workers are at rest. -/
def join (staff : Staff) (crew : Crew n) : Crew n :=
  crew.advance staff.chance.turn fun _ ↦ false

end Crew

end TreeAudit.Reachability
