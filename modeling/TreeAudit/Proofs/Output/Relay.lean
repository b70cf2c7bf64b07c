import TreeAudit.Proofs.Output.Crash
import TreeAudit.Report.Queue
import Mathlib.Logic.Relation

/-!
A report on its way from the side that makes it to the writer, over a queue of bounded room. Each
side makes its steps when it can, in any order (`Step`): the sender offers the entries one by one,
the closing mark last, and waits while the queue is full; the writer waits while it is empty, and
gives what it receives to one sink after the other. A sink may crash at any entry. The receiver
is gone then, and what is offered from there on is refused.

Whatever the order, every entry that was accepted has been rendered, is in the hand of the writer,
waits, or was lost with the receiver, in the order in which it was offered (`Orderly`,
`Orderly.step`), and what the writer is going to leave behind is what it leaves when it is given
the whole report at once (`Stage.outcome`). Every step uses up some load (`load_step`) and sides
that have not both finished can make a step (`Orderly.exists_step`), so every run comes to an
end, and to the same one (`run_accounted`).
-/

set_option autoImplicit false
set_option relaxedAutoImplicit false

namespace TreeAudit.Output

open Report Writer

variable {σ : Type} (sink : Sink σ)

namespace Relay

/-- Where the writer stands. -/
inductive Stage (σ : Type) where
  /-- It waits for an entry. -/
  | idle (sinks : List σ) (tally : Tally)
  /-- It gives an entry to the sinks. Some have it, with so many failures, and some are left. -/
  | rendering (entry : Entry) (passed left : List σ) (failures : ℕ) (tally : Tally)
  /-- It is to receive nothing more, and the sinks are to be closed. -/
  | ended (sinks : List σ) (tally : Tally)
  /-- The sinks are closed, and the receiver is to go. -/
  | closed (finished : Finished σ)
  /-- A sink has crashed, and the receiver is to go first. -/
  | crashed (sinks : List σ)
  /-- The receiver has gone, and the sinks are to be closed even so. -/
  | unwinding (sinks : List σ)
  | gone (finished : Finished σ)

namespace Stage

/-- The sinks as they are by now. -/
def sinks : Stage σ → List σ
  | idle sinks _ => sinks
  | rendering _ passed left _ _ => passed ++ left
  | ended sinks _ => sinks
  | closed finished => finished.sinks
  | crashed sinks => sinks
  | unwinding sinks => sinks
  | gone finished => finished.sinks

/-- Whether there still is a receiver. -/
def listens : Stage σ → Bool
  | unwinding _ => false
  | gone _ => false
  | _ => true

/-- What the writer leaves behind if it is given the rest of a report at once. -/
def outcome (rest : List Entry) : Stage σ → Finished σ
  | idle sinks tally => writeFrom sink tally sinks rest
  | rendering entry passed left failures tally =>
    let (left, more, whole) := offer sink entry left
    if whole then writeFrom sink (count entry (failures + more) tally) (passed ++ left) rest
    else abandon sink (passed ++ left)
  | ended sinks tally => finish sink sinks tally
  | closed finished => finished
  | crashed sinks => abandon sink sinks
  | unwinding sinks => abandon sink sinks
  | gone finished => finished

/-- How many steps the writer still makes, at most, without receiving anything. -/
def load : Stage σ → ℕ
  | idle _ _ => 3
  | rendering _ _ left _ _ => left.length + 4
  | ended _ _ => 2
  | closed _ => 1
  | crashed _ => 2
  | unwinding _ => 1
  | gone _ => 0

end Stage

end Relay

/-- The two sides and the queue between them. -/
structure Relay (σ : Type) where
  /-- What is still to be offered. -/
  unsent : List Entry
  /-- What has been accepted. -/
  published : List Entry
  queue : Queue Entry
  /-- What every sink has been given. -/
  rendered : List Entry
  /-- What was received last and has not been rendered. -/
  inHand : Option Entry
  /-- What was waiting when the receiver went. -/
  lost : List Entry
  stage : Relay.Stage σ

namespace Relay

/-- Before the first step: results to be offered and then the closing mark. -/
def start (sinks : List σ) (results : List Entry) (capacity : ℕ) : Relay σ where
  unsent := results ++ [.closing]
  published := []
  queue := .ofCapacity capacity
  rendered := []
  inHand := none
  lost := []
  stage := .idle sinks {}

/-- One side makes one step. -/
inductive Step : Relay σ → Relay σ → Prop
  /-- An entry is accepted. -/
  | send {relay : Relay σ} {entry : Entry} {rest : List Entry} {queue : Queue Entry}
      (hunsent : relay.unsent = entry :: rest) (hsend : relay.queue.send entry = .done queue) :
      Step relay { relay with
        unsent := rest, published := relay.published ++ [entry], queue := queue }
  /-- An entry is refused. -/
  | refuse {relay : Relay σ} {entry : Entry} {rest : List Entry}
      (hunsent : relay.unsent = entry :: rest) (hsend : relay.queue.send entry = .gone) :
      Step relay { relay with unsent := rest }
  /-- The sender goes when it has nothing left to offer. -/
  | leave {relay : Relay σ} (hunsent : relay.unsent = []) (hsender : relay.queue.senders ≠ 0) :
      Step relay { relay with queue := relay.queue.dropSender }
  /-- The writer receives an entry. -/
  | receive {relay : Relay σ} {sinks : List σ} {tally : Tally} {entry : Entry}
      {queue : Queue Entry} (hstage : relay.stage = .idle sinks tally)
      (hreceive : relay.queue.receive = .done (entry, queue)) (hentry : entry ≠ .closing) :
      Step relay { relay with
        queue := queue, inHand := some entry, stage := .rendering entry [] sinks 0 tally }
  /-- The writer receives the closing mark. -/
  | receiveClosing {relay : Relay σ} {sinks : List σ} {tally : Tally} {queue : Queue Entry}
      (hstage : relay.stage = .idle sinks tally)
      (hreceive : relay.queue.receive = .done (.closing, queue)) :
      Step relay { relay with
        queue := queue, inHand := some .closing
        stage := .ended sinks { tally with sawEnd := true } }
  /-- The writer finds that every sender has gone. -/
  | receiveNothing {relay : Relay σ} {sinks : List σ} {tally : Tally}
      (hstage : relay.stage = .idle sinks tally) (hreceive : relay.queue.receive = .gone) :
      Step relay { relay with stage := .ended sinks tally }
  /-- The next sink is given the entry, and may fail. -/
  | give {relay : Relay σ} {entry : Entry} {passed left : List σ} {first next : σ}
      {failures : ℕ} {tally : Tally} {written : Written}
      (hstage : relay.stage = .rendering entry passed (first :: left) failures tally)
      (hwrite : sink.write entry first = (next, written)) (hgoes : written ≠ .crashed) :
      Step relay { relay with
        stage := .rendering entry (passed ++ [next]) left
          (failures + if written = .failed then 1 else 0) tally }
  /-- The next sink is given the entry, and crashes. -/
  | crash {relay : Relay σ} {entry : Entry} {passed left : List σ} {first next : σ}
      {failures : ℕ} {tally : Tally}
      (hstage : relay.stage = .rendering entry passed (first :: left) failures tally)
      (hwrite : sink.write entry first = (next, .crashed)) :
      Step relay { relay with stage := .crashed (passed ++ next :: left) }
  /-- Every sink has been given the entry. -/
  | rendered {relay : Relay σ} {entry : Entry} {passed : List σ} {failures : ℕ} {tally : Tally}
      (hstage : relay.stage = .rendering entry passed [] failures tally) :
      Step relay { relay with
        rendered := relay.rendered ++ [entry], inHand := none
        stage := .idle passed (count entry failures tally) }
  | close {relay : Relay σ} {sinks : List σ} {tally : Tally}
      (hstage : relay.stage = .ended sinks tally) :
      Step relay { relay with stage := .closed (finish sink sinks tally) }
  | depart {relay : Relay σ} {finished : Finished σ} (hstage : relay.stage = .closed finished) :
      Step relay { relay with
        queue := relay.queue.dropReceiver, lost := relay.queue.waiting, stage := .gone finished }
  | unwind {relay : Relay σ} {sinks : List σ} (hstage : relay.stage = .crashed sinks) :
      Step relay { relay with
        queue := relay.queue.dropReceiver, lost := relay.queue.waiting, stage := .unwinding sinks }
  | release {relay : Relay σ} {sinks : List σ} (hstage : relay.stage = .unwinding sinks) :
      Step relay { relay with stage := .gone (abandon sink sinks) }

/-- Any number of steps, in any order of the sides. -/
abbrev Run : Relay σ → Relay σ → Prop := Relation.ReflTransGen (Step sink)

/-- Both sides are done: the sender has gone, and so has the writer. -/
def Settled (relay : Relay σ) : Prop :=
  relay.unsent = [] ∧ relay.queue.senders = 0 ∧ ∃ finished, relay.stage = .gone finished

/-! ### What every step keeps -/

section Orderly

variable (sinks : List σ) (results : List Entry) (capacity : ℕ)

/-- Sinks of which one has crashed while they were given an entry: the first ones have been given
it, the others have not. -/
def Broken (rendered : List Entry) (hand : Option Entry) (now : List σ) : Prop :=
  ∃ entry first second, hand = some entry ∧ entry ≠ .closing ∧ sinks = first ++ second ∧
    now = first.map (sink.given (rendered ++ [entry])) ++ second.map (sink.given rendered)

/-- What the writer has in its hand, and what its sinks have been given: what was rendered, and
besides, some of them, what is being rendered. In the end they are closed. -/
def Stage.Holds (rendered : List Entry) (hand : Option Entry) : Stage σ → Prop
  | idle now _ => hand = none ∧ now = sinks.map (sink.given rendered)
  | rendering entry passed left _ _ =>
    hand = some entry ∧ entry ≠ .closing ∧ ∃ first second, sinks = first ++ second ∧
      passed = first.map (sink.given (rendered ++ [entry])) ∧
        left = second.map (sink.given rendered)
  | ended now _ => hand = some .closing ∧ now = sinks.map (sink.given rendered)
  | closed finished =>
    hand = some .closing ∧ finished.tally ≠ none ∧
      finished.sinks = sinks.map (sink.served rendered)
  | crashed now => Broken sink sinks rendered hand now
  | unwinding now => Broken sink sinks rendered hand now
  | gone finished =>
    (hand = some .closing ∧ finished.tally ≠ none ∧
        finished.sinks = sinks.map (sink.served rendered)) ∨
      ∃ now, Broken sink sinks rendered hand now ∧ finished = abandon sink now

/-- Where the sides may be by now. -/
structure Orderly (relay : Relay σ) : Prop where
  capacity_eq : relay.queue.capacity = max capacity 1
  unsent_eq_nil : relay.queue.senders = 0 → relay.unsent = []
  hasReceiver_eq : relay.queue.hasReceiver = relay.stage.listens
  /-- Nothing is refused as long as there is a receiver. -/
  published_append : relay.stage.listens = true →
    relay.published ++ relay.unsent = results ++ [.closing]
  published_prefix : relay.published <+: results ++ [.closing]
  /-- What was accepted is rendered, in the hand of the writer, waiting or lost. -/
  accounted : relay.rendered ++ relay.inHand.toList ++ relay.queue.waiting ++ relay.lost =
    relay.published
  lost_eq_nil : relay.stage.listens = true → relay.lost = []
  rendered_open : .closing ∉ relay.rendered
  holds : relay.stage.Holds sink sinks relay.rendered relay.inHand
  /-- Neither side can change any more what the writer is going to leave behind. -/
  outcome_eq : relay.stage.outcome sink (relay.queue.waiting ++ relay.unsent) =
    write sink sinks (results ++ [.closing])

theorem orderly_start : Orderly sink sinks results capacity (start sinks results capacity) where
  capacity_eq := rfl
  unsent_eq_nil := nofun
  hasReceiver_eq := rfl
  published_append _ := rfl
  published_prefix := List.nil_prefix
  accounted := rfl
  lost_eq_nil _ := rfl
  rendered_open := List.not_mem_nil
  holds := ⟨rfl, (List.map_id sinks).symm⟩
  outcome_eq := rfl

variable {sink sinks results capacity}

/-- Once the receiver has gone, nothing that is offered matters. -/
theorem Stage.outcome_of_gone {stage : Stage σ} (h : stage.listens = false)
    (rest rest' : List Entry) : stage.outcome sink rest = stage.outcome sink rest' := by
  cases stage with
  | unwinding | gone => rfl
  | idle | rendering | ended | closed | crashed => cases h

section Outcome

variable {entry : Entry} (passed left : List σ) {first next : σ} (failures : ℕ) (tally : Tally)
  (rest : List Entry)

theorem Stage.outcome_receive (hentry : entry ≠ .closing) :
    (Stage.rendering entry [] left 0 tally).outcome sink rest =
      (Stage.idle left tally).outcome sink (entry :: rest) := by
  rw [outcome, outcome, writeFrom.eq_3 _ _ _ _ _ hentry]
  rcases offer sink entry left with ⟨left, more, whole⟩
  cases whole <;> simp

theorem Stage.outcome_give {written : Written} (hwrite : sink.write entry first = (next, written))
    (hgoes : written ≠ .crashed) :
    (Stage.rendering entry (passed ++ [next]) left
        (failures + if written = .failed then 1 else 0) tally).outcome sink rest =
      (Stage.rendering entry passed (first :: left) failures tally).outcome sink rest := by
  rw [outcome, outcome, offer, hwrite]
  cases written with
  | crashed => exact absurd rfl hgoes
  | done => simp
  | failed => simp [Nat.add_assoc, Nat.add_comm 1]

theorem Stage.outcome_crash (hwrite : sink.write entry first = (next, .crashed)) :
    (Stage.crashed (passed ++ next :: left)).outcome sink rest =
      (Stage.rendering entry passed (first :: left) failures tally).outcome sink rest := by
  rw [outcome, outcome, offer, hwrite]
  rfl

theorem Stage.outcome_rendered :
    (Stage.idle passed (count entry failures tally)).outcome sink rest =
      (Stage.rendering entry passed [] failures tally).outcome sink rest := by
  simp [outcome, offer]

end Outcome

namespace Orderly

variable {relay next : Relay σ}

/-- A writer that waits is not left without a closing mark. -/
theorem receive_ne_gone (h : Orderly sink sinks results capacity relay) {now : List σ}
    {tally : Tally} (hstage : relay.stage = .idle now tally) : relay.queue.receive ≠ .gone := by
  intro hgone
  obtain ⟨hwaiting, hsenders⟩ := Queue.empty_of_receive_gone hgone
  have hlistens : relay.stage.listens = true := by
    rw [hstage]
    rfl
  have hhand : relay.inHand = none := by
    have hholds := h.holds
    rw [hstage] at hholds
    exact hholds.1
  -- everything was accepted and nothing waits, so the mark would have to be rendered
  have hall : relay.rendered = results ++ [.closing] := by
    rw [← h.published_append hlistens, h.unsent_eq_nil hsenders, ← h.accounted, hhand, hwaiting,
      h.lost_eq_nil hlistens]
    simp
  exact h.rendered_open (by simp [hall])

/-- The writer alone makes a step. -/
theorem restage (h : Orderly sink sinks results capacity relay) {stage : Stage σ}
    (hlistens : stage.listens = relay.stage.listens)
    (hholds : stage.Holds sink sinks relay.rendered relay.inHand)
    (houtcome : ∀ rest, stage.outcome sink rest = relay.stage.outcome sink rest) :
    Orderly sink sinks results capacity { relay with stage := stage } :=
  { h with
    hasReceiver_eq := h.hasReceiver_eq.trans hlistens.symm
    published_append := fun hstill ↦ h.published_append (hlistens ▸ hstill)
    lost_eq_nil := fun hstill ↦ h.lost_eq_nil (hlistens ▸ hstill)
    holds := hholds
    outcome_eq := (houtcome _).trans h.outcome_eq }

/-- The writer takes an entry into its hand. -/
theorem take (h : Orderly sink sinks results capacity relay) {entry : Entry}
    {queue : Queue Entry} {stage : Stage σ}
    (hreceive : relay.queue.receive = .done (entry, queue)) (hempty : relay.inHand = none)
    (hlistens : stage.listens = relay.stage.listens)
    (hholds : stage.Holds sink sinks relay.rendered (some entry))
    (houtcome : ∀ rest, stage.outcome sink rest = relay.stage.outcome sink (entry :: rest)) :
    Orderly sink sinks results capacity
      { relay with queue := queue, inHand := some entry, stage := stage } := by
  obtain ⟨hwaiting, hcapacity, hsenders, hreceiver⟩ := Queue.waiting_of_receive hreceive
  refine { h with
    capacity_eq := hcapacity.trans h.capacity_eq
    unsent_eq_nil := fun hnone ↦ h.unsent_eq_nil (hsenders ▸ hnone)
    hasReceiver_eq := (hreceiver.trans h.hasReceiver_eq).trans hlistens.symm
    published_append := fun hstill ↦ h.published_append (hlistens ▸ hstill)
    accounted := ?_
    lost_eq_nil := fun hstill ↦ h.lost_eq_nil (hlistens ▸ hstill)
    holds := hholds
    outcome_eq := ?_ }
  · rw [← h.accounted, hempty, hwaiting]
    simp
  · rw [← h.outcome_eq, hwaiting]
    exact houtcome _

/-- The writer has given the entry in its hand to every sink. -/
theorem putDown (h : Orderly sink sinks results capacity relay) {entry : Entry}
    {passed : List σ} {failures : ℕ} {tally : Tally}
    (hstage : relay.stage = .rendering entry passed [] failures tally)
    (hhand : relay.inHand = some entry) (hentry : entry ≠ .closing)
    (hpassed : passed = sinks.map (sink.given (relay.rendered ++ [entry]))) :
    Orderly sink sinks results capacity
      { relay with
        rendered := relay.rendered ++ [entry], inHand := none
        stage := .idle passed (count entry failures tally) } := by
  have hlistens : relay.stage.listens = true := by
    rw [hstage]
    rfl
  refine { h with
    hasReceiver_eq := h.hasReceiver_eq.trans hlistens
    published_append := fun _ ↦ h.published_append hlistens
    accounted := ?_
    lost_eq_nil := fun _ ↦ h.lost_eq_nil hlistens
    rendered_open := ?_
    holds := ⟨rfl, hpassed⟩
    outcome_eq := ?_ }
  · rw [← h.accounted, hhand]
    simp
  · exact fun hmem ↦ (List.mem_append.mp hmem).elim h.rendered_open
      fun hlast ↦ hentry (List.mem_singleton.mp hlast).symm
  · rw [← h.outcome_eq, hstage]
    exact Stage.outcome_rendered passed failures tally _

/-- The writer drops the receiver. -/
theorem drop (h : Orderly sink sinks results capacity relay) {stage : Stage σ}
    (hstill : relay.stage.listens = true) (hgone : stage.listens = false)
    (hholds : stage.Holds sink sinks relay.rendered relay.inHand)
    (houtcome : ∀ rest rest', stage.outcome sink rest = relay.stage.outcome sink rest') :
    Orderly sink sinks results capacity
      { relay with
        queue := relay.queue.dropReceiver, lost := relay.queue.waiting, stage := stage } := by
  refine { h with
    hasReceiver_eq := hgone.symm
    published_append := fun hlistens ↦ absurd (hgone.symm.trans hlistens) Bool.false_ne_true
    accounted := ?_
    lost_eq_nil := fun hlistens ↦ absurd (hgone.symm.trans hlistens) Bool.false_ne_true
    holds := hholds
    outcome_eq := (houtcome _ _).trans h.outcome_eq }
  rw [← h.accounted, h.lost_eq_nil hstill]
  simp [Queue.dropReceiver]

theorem send (h : Orderly sink sinks results capacity relay) {entry : Entry} {rest : List Entry}
    {queue : Queue Entry} (hunsent : relay.unsent = entry :: rest)
    (hsend : relay.queue.send entry = .done queue) :
    Orderly sink sinks results capacity
      { relay with
        unsent := rest, published := relay.published ++ [entry], queue := queue } := by
  obtain ⟨hwaiting, hcapacity, hsenders, hreceiver, hreceiver'⟩ := Queue.waiting_of_send hsend
  have hlistens : relay.stage.listens = true := by rw [← h.hasReceiver_eq, hreceiver]
  have hreport : relay.published ++ [entry] ++ rest = results ++ [.closing] := by
    rw [← h.published_append hlistens, hunsent, List.append_assoc, List.singleton_append]
  refine { h with
    capacity_eq := hcapacity.trans h.capacity_eq
    unsent_eq_nil := fun hnone ↦ ?_
    hasReceiver_eq := by rw [← h.hasReceiver_eq, hreceiver, hreceiver']
    published_append := fun _ ↦ hreport
    published_prefix := ⟨rest, hreport⟩
    accounted := ?_
    outcome_eq := ?_ }
  · have hnil := h.unsent_eq_nil (hsenders ▸ hnone)
    rw [hunsent] at hnil
    cases hnil
  · rw [hwaiting, ← h.accounted, h.lost_eq_nil hlistens]
    simp
  · rw [hwaiting, List.append_assoc, List.singleton_append, ← hunsent]
    exact h.outcome_eq

theorem refuse (h : Orderly sink sinks results capacity relay) {entry : Entry}
    {rest : List Entry} (hunsent : relay.unsent = entry :: rest)
    (hsend : relay.queue.send entry = .gone) :
    Orderly sink sinks results capacity { relay with unsent := rest } := by
  have hgone : relay.stage.listens = false := by
    rw [← h.hasReceiver_eq, Queue.send_eq_gone_iff.mp hsend]
  refine { h with
    unsent_eq_nil := fun hnone ↦ ?_
    published_append := fun hlistens ↦ absurd (hgone.symm.trans hlistens) Bool.false_ne_true
    outcome_eq := (Stage.outcome_of_gone hgone _ _).trans h.outcome_eq }
  have hnil := h.unsent_eq_nil hnone
  rw [hunsent] at hnil
  cases hnil

/-- What the writer holds, at its stage. -/
theorem holds_of_stage (h : Orderly sink sinks results capacity relay) {stage : Stage σ}
    (hstage : relay.stage = stage) : stage.Holds sink sinks relay.rendered relay.inHand :=
  hstage ▸ h.holds

theorem step (h : Orderly sink sinks results capacity relay) (hstep : Step sink relay next) :
    Orderly sink sinks results capacity next := by
  cases hstep with
  | send hunsent hsend => exact h.send hunsent hsend
  | refuse hunsent hsend => exact h.refuse hunsent hsend
  | leave hunsent hsender => exact { h with unsent_eq_nil := fun _ ↦ hunsent }
  | @receive now tally entry queue hstage hreceive hentry =>
    obtain ⟨hhand, hnow⟩ := h.holds_of_stage hstage
    refine h.take hreceive hhand (by rw [hstage]; rfl)
      ⟨rfl, hentry, [], sinks, rfl, rfl, hnow⟩ fun rest ↦ ?_
    rw [hstage, Stage.outcome_receive now tally rest hentry]
  | receiveClosing hstage hreceive =>
    obtain ⟨hhand, hnow⟩ := h.holds_of_stage hstage
    refine h.take hreceive hhand (by rw [hstage]; rfl) ⟨rfl, hnow⟩ fun rest ↦ ?_
    rw [hstage, Stage.outcome, Stage.outcome, writeFrom]
  | receiveNothing hstage hreceive => exact absurd hreceive (h.receive_ne_gone hstage)
  | @give entry passed left first after failures tally written hstage hwrite hgoes =>
    obtain ⟨hhand, hentry, given, others, hsinks, hpassed, hleft⟩ := h.holds_of_stage hstage
    obtain ⟨state, others, rfl, rfl, rfl⟩ := List.map_eq_cons_iff.mp hleft.symm
    refine h.restage (by rw [hstage]; rfl)
      ⟨hhand, hentry, given ++ [state], others, by simp [hsinks], ?_, rfl⟩ fun rest ↦ ?_
    · rw [hpassed, List.map_append, List.map_singleton, sink.given_concat, hwrite]
    · rw [hstage, Stage.outcome_give passed _ failures tally rest hwrite hgoes]
  | @crash entry passed left first after failures tally hstage hwrite =>
    obtain ⟨hhand, hentry, given, others, hsinks, hpassed, hleft⟩ := h.holds_of_stage hstage
    obtain ⟨state, others, rfl, rfl, rfl⟩ := List.map_eq_cons_iff.mp hleft.symm
    refine h.restage (by rw [hstage]; rfl)
      ⟨entry, given ++ [state], others, hhand, hentry, by simp [hsinks], ?_⟩ fun rest ↦ ?_
    · rw [hpassed, List.map_append, List.map_singleton, sink.given_concat, hwrite,
        List.append_assoc, List.singleton_append]
    · rw [hstage, Stage.outcome_crash passed _ failures tally rest hwrite]
  | @rendered entry passed failures tally hstage =>
    obtain ⟨hhand, hentry, given, others, hsinks, hpassed, hleft⟩ := h.holds_of_stage hstage
    obtain rfl := List.map_eq_nil_iff.mp hleft.symm
    exact h.putDown hstage hhand hentry (by rw [hpassed, hsinks, List.append_nil])
  | @close now tally hstage =>
    obtain ⟨hhand, hnow⟩ := h.holds_of_stage hstage
    refine h.restage (by rw [hstage]; rfl) ⟨hhand, Option.some_ne_none _, ?_⟩ fun rest ↦ ?_
    · rw [hnow, finish, closeAll_eq, List.map_map]
      rfl
    · rw [hstage]
      rfl
  | depart hstage =>
    obtain ⟨hhand, htally, hnow⟩ := h.holds_of_stage hstage
    refine h.drop (by rw [hstage]; rfl) rfl (.inl ⟨hhand, htally, hnow⟩) fun rest rest' ↦ ?_
    rw [hstage]
    rfl
  | @unwind now hstage =>
    have hbroken : Broken sink sinks relay.rendered relay.inHand now := h.holds_of_stage hstage
    refine h.drop (by rw [hstage]; rfl) rfl hbroken fun rest rest' ↦ ?_
    rw [hstage]
    rfl
  | release hstage =>
    refine h.restage (by rw [hstage]; rfl) (.inr ⟨_, h.holds_of_stage hstage, rfl⟩) fun rest ↦ ?_
    rw [hstage]
    rfl

theorem run (h : Orderly sink sinks results capacity relay) (hrun : Run sink relay next) :
    Orderly sink sinks results capacity next := by
  induction hrun with
  | refl => exact h
  | tail _ hstep ih => exact ih.step hstep

/-- A side that has not finished waits for the other only if that one can go on. -/
theorem exists_step (h : Orderly sink sinks results capacity relay) (hopen : ¬ relay.Settled) :
    ∃ next, Step sink relay next := by
  -- where the sender neither has to wait nor has finished, it makes a step
  have hsender (hfree : relay.queue.waiting = [] ∨ relay.queue.hasReceiver = false)
      (hleft : relay.unsent ≠ [] ∨ relay.queue.senders ≠ 0) : ∃ next, Step sink relay next := by
    cases hunsent : relay.unsent with
    | nil => exact ⟨_, .leave hunsent (hleft.resolve_left (absurd hunsent))⟩
    | cons entry rest =>
      cases hsend : relay.queue.send entry with
      | done queue => exact ⟨_, .send hunsent hsend⟩
      | gone => exact ⟨_, .refuse hunsent hsend⟩
      | waits => exact absurd hsend (Queue.send_ne_waits hfree entry)
  cases hstage : relay.stage with
  | idle now tally =>
    cases hreceive : relay.queue.receive with
    | done received =>
      obtain ⟨entry, queue⟩ := received
      by_cases hentry : entry = .closing
      · exact ⟨_, .receiveClosing hstage (hentry ▸ hreceive)⟩
      · exact ⟨_, .receive hstage hreceive hentry⟩
    | gone => exact ⟨_, .receiveNothing hstage hreceive⟩
    | waits =>
      have hwaits : ¬ (relay.queue.waiting ≠ [] ∨ relay.queue.senders = 0) :=
        fun hready ↦ Queue.receive_ne_waits hready hreceive
      obtain ⟨hwaiting, hsenders⟩ := not_or.mp hwaits
      exact hsender (.inl (not_not.mp hwaiting)) (.inr hsenders)
  | rendering entry passed left failures tally =>
    cases left with
    | nil => exact ⟨_, .rendered hstage⟩
    | cons first left =>
      rcases hwrite : sink.write entry first with ⟨after, written⟩
      by_cases hcrash : written = .crashed
      · exact ⟨_, .crash hstage (hcrash ▸ hwrite)⟩
      · exact ⟨_, .give hstage hwrite hcrash⟩
  | ended => exact ⟨_, .close hstage⟩
  | closed => exact ⟨_, .depart hstage⟩
  | crashed => exact ⟨_, .unwind hstage⟩
  | unwinding => exact ⟨_, .release hstage⟩
  | gone finished =>
    have hgone : relay.queue.hasReceiver = false := by
      rw [h.hasReceiver_eq, hstage]
      rfl
    refine hsender (.inr hgone) ?_
    by_contra hnone
    obtain ⟨hunsent, hsenders⟩ := not_or.mp hnone
    exact hopen ⟨not_not.mp hunsent, not_not.mp hsenders, finished, hstage⟩

end Orderly

end Orderly

/-! ### Every run ends -/

/-- A bound on the steps to come: for an entry that is offered one more than for one that waits,
and for one that waits as many as it takes to give it to every sink. -/
def load (relay : Relay σ) : ℕ :=
  relay.unsent.length * (relay.stage.sinks.length + 3) +
    relay.queue.waiting.length * (relay.stage.sinks.length + 2) + relay.queue.senders +
      relay.stage.load

variable {sink} {relay next : Relay σ}

theorem length_sinks_step (hstep : Step sink relay next) :
    next.stage.sinks.length = relay.stage.sinks.length := by
  cases hstep with
  | send | refuse | leave => rfl
  | receive hstage | receiveClosing hstage | receiveNothing hstage | rendered hstage
  | depart hstage | unwind hstage => simp [hstage, Stage.sinks]
  | give hstage | crash hstage => simp [hstage, Stage.sinks]
  | close hstage => simp [hstage, Stage.sinks, finish, closeAll]
  | release hstage => simp [hstage, Stage.sinks, abandon, closeAll]

/-- A step of the writer alone brings it closer to its end. -/
theorem load_restage {stage : Stage σ}
    (hlength : stage.sinks.length = relay.stage.sinks.length)
    (hload : stage.load < relay.stage.load) (rendered : List Entry) (hand : Option Entry) :
    ({ relay with rendered := rendered, inHand := hand, stage := stage } : Relay σ).load <
      relay.load := by
  simp only [load, hlength]
  omega

/-- So does dropping the receiver, whatever is waiting. -/
theorem load_drop {stage : Stage σ} (hlength : stage.sinks.length = relay.stage.sinks.length)
    (hload : stage.load < relay.stage.load) :
    ({ relay with
      queue := relay.queue.dropReceiver, lost := relay.queue.waiting, stage := stage } :
        Relay σ).load < relay.load := by
  simp only [load, hlength, Queue.dropReceiver, List.length_nil, Nat.zero_mul]
  omega

/-- So does taking an entry, if no more follows from it than it takes to give it to every sink. -/
theorem load_take {entry : Entry} {queue : Queue Entry} {stage : Stage σ}
    (hreceive : relay.queue.receive = .done (entry, queue))
    (hlength : stage.sinks.length = relay.stage.sinks.length)
    (hload : stage.load < relay.stage.sinks.length + 2 + relay.stage.load) :
    ({ relay with queue := queue, inHand := some entry, stage := stage } : Relay σ).load <
      relay.load := by
  obtain ⟨hwaiting, -, hsenders, -⟩ := Queue.waiting_of_receive hreceive
  simp only [load, hlength, hwaiting, hsenders, List.length_cons, Nat.add_mul]
  omega

theorem load_step (hstep : Step sink relay next) : next.load < relay.load := by
  have hlength := length_sinks_step hstep
  cases hstep with
  | send hunsent hsend =>
    obtain ⟨hwaiting, -, hsenders, -⟩ := Queue.waiting_of_send hsend
    simp only [load, hunsent, hwaiting, hsenders, List.length_append, List.length_cons,
      List.length_nil, Nat.add_mul]
    omega
  | refuse hunsent hsend =>
    simp only [load, hunsent, List.length_cons, Nat.add_mul]
    omega
  | leave hunsent hsender =>
    simp only [load, Queue.dropSender]
    omega
  | receive hstage hreceive =>
    exact load_take hreceive hlength (by simp only [hstage, Stage.load, Stage.sinks]; omega)
  | receiveClosing hstage hreceive =>
    exact load_take hreceive hlength (by simp only [hstage, Stage.load]; omega)
  | receiveNothing hstage => exact load_restage hlength (by simp [hstage, Stage.load]) _ _
  | give hstage => exact load_restage hlength (by simp [hstage, Stage.load]) _ _
  | crash hstage => exact load_restage hlength (by simp [hstage, Stage.load]) _ _
  | rendered hstage => exact load_restage hlength (by simp [hstage, Stage.load]) _ _
  | close hstage => exact load_restage hlength (by simp [hstage, Stage.load]) _ _
  | depart hstage => exact load_drop hlength (by simp [hstage, Stage.load])
  | unwind hstage => exact load_drop hlength (by simp [hstage, Stage.load])
  | release hstage => exact load_restage hlength (by simp [hstage, Stage.load]) _ _

/-- The sides cannot make steps forever. -/
theorem wellFounded_step : WellFounded fun next relay : Relay σ ↦ Step sink relay next :=
  Subrelation.wf load_step (measure load).wf

variable (sinks : List σ) (results : List Entry) (capacity : ℕ)

/-- From wherever they are, the two sides can come to an end. -/
theorem Orderly.exists_settled {sinks : List σ} {results : List Entry} {capacity : ℕ}
    (h : Orderly sink sinks results capacity relay) :
    ∃ final, Run sink relay final ∧ final.Settled := by
  induction relay using (@wellFounded_step _ sink).induction with
  | _ relay ih =>
    by_cases hsettled : relay.Settled
    · exact ⟨relay, .refl, hsettled⟩
    · obtain ⟨next, hstep⟩ := h.exists_step hsettled
      obtain ⟨final, hrun, hfinal⟩ := ih next hstep (h.step hstep)
      exact ⟨final, hrun.head hstep, hfinal⟩

/-- Where both sides have finished, the writer has left behind what it leaves when it is given the
whole report at once. -/
theorem Orderly.stage_of_settled {sinks : List σ} {results : List Entry} {capacity : ℕ}
    (h : Orderly sink sinks results capacity relay) (hsettled : relay.Settled) :
    relay.stage = .gone (write sink sinks (results ++ [.closing])) := by
  obtain ⟨-, -, finished, hstage⟩ := hsettled
  have houtcome := h.outcome_eq
  rw [hstage] at houtcome ⊢
  exact congrArg Stage.gone houtcome

/-- A writer that met no crash has rendered everything up to the closing mark. -/
theorem Orderly.rendered_of_tally {sinks : List σ} {results : List Entry} {capacity : ℕ}
    (h : Orderly sink sinks results capacity relay) {finished : Finished σ}
    (hstage : relay.stage = .gone finished) (htally : finished.tally ≠ none)
    (hopen : .closing ∉ results) :
    relay.rendered = results ∧ relay.published = results ++ [.closing] := by
  have hhand : relay.inHand = some .closing := by
    rcases h.holds_of_stage hstage with ⟨hhand, -⟩ | ⟨now, -, rfl⟩
    · exact hhand
    · exact absurd rfl htally
  obtain ⟨unpublished, hprefix⟩ := h.published_prefix
  have haccounted := h.accounted
  rw [hhand, Option.toList_some, List.append_assoc, List.append_assoc,
    List.singleton_append] at haccounted
  -- both sides of this begin with entries that are no closing mark, and then have one
  have hreport : relay.rendered ++ .closing ::
      (relay.queue.waiting ++ relay.lost ++ unpublished) = results ++ [.closing] := by
    rw [← hprefix, ← haccounted]
    simp
  have hrendered : relay.rendered = results := by
    rw [← upToClosing_append h.rendered_open, hreport, upToClosing_append hopen]
  refine ⟨hrendered, ?_⟩
  rw [hrendered, List.append_cancel_left_eq, List.cons.injEq] at hreport
  obtain ⟨hnone, -⟩ := List.append_eq_nil_iff.mp hreport.2
  rw [← haccounted, hrendered, hnone]

/-- Whatever the order of the steps, what has been accepted from the sender is, in the order in
which it was offered, what has been rendered, what is being rendered, what waits, and what was lost
with the receiver; the queue never holds more than it has room for, and every sink has been given
what was rendered. A side that has not finished can make a step or waits for the other that can,
also when a sink has crashed, since what is offered then is refused. The steps come to an end, and
to the same one in whatever order: the writer leaves behind what it does when it is given the whole
report at once, and if no sink crashes, every sink has been given all results. -/
theorem run_accounted (hrun : Run sink (start sinks results capacity) relay) :
    (relay.rendered <+: relay.published ∧ relay.published <+: results ++ [.closing] ∧
      relay.rendered ++ relay.inHand.toList ++ relay.queue.waiting ++ relay.lost =
        relay.published ∧
      (relay.stage.listens = true → relay.lost = []) ∧
      relay.queue.waiting.length ≤ max capacity 1 ∧
      relay.stage.Holds sink sinks relay.rendered relay.inHand) ∧
    ((¬ relay.Settled → ∃ next, Step sink relay next) ∧
      (relay.stage.listens = false → ∀ entry, relay.queue.send entry = .gone) ∧
      (∃ final, Run sink relay final ∧ final.Settled) ∧
      WellFounded fun next relay : Relay σ ↦ Step sink relay next) ∧
    (relay.Settled →
      relay.stage = .gone (write sink sinks (results ++ [.closing])) ∧
        (.closing ∉ results → (∀ state ∈ sinks, sink.Survives results state) →
          relay.rendered = results ∧ relay.published = results ++ [.closing] ∧
            relay.stage.sinks = sinks.map (sink.served results))) := by
  have h := (orderly_start sink sinks results capacity).run hrun
  refine ⟨⟨?_, h.published_prefix, h.accounted, h.lost_eq_nil, ?_, h.holds⟩,
    ⟨h.exists_step, ?_, h.exists_settled, wellFounded_step⟩, fun hsettled ↦ ?_⟩
  · exact ⟨_, by rw [← h.accounted, List.append_assoc, List.append_assoc]⟩
  · rw [← h.capacity_eq]
    exact relay.queue.waiting_le
  · exact fun hgone _ ↦ Queue.send_eq_gone_iff.mpr (h.hasReceiver_eq.trans hgone)
  · have hstage := h.stage_of_settled hsettled
    refine ⟨hstage, fun hopen hsinks ↦ ?_⟩
    have hwrite := write_closing_of_survives hopen hsinks []
    have htally : (write sink sinks (results ++ [.closing])).tally ≠ none := by
      rw [hwrite]
      exact nofun
    obtain ⟨hrendered, hpublished⟩ := h.rendered_of_tally hstage htally hopen
    exact ⟨hrendered, hpublished, by rw [hstage, hwrite, Stage.sinks]⟩

/-- The second sink crashes at the second entry. -/
theorem run_accounted_brittle :
    let results : List Entry := [.status "a", .status "b", .status "c"]
    ∃ relay, Run brittle (start [0, 1] results 0) relay ∧ relay.Settled ∧
      relay.stage = .gone ⟨[12, 13], none⟩ ∧ ∀ entry, relay.queue.send entry = .gone := by
  intro results
  obtain ⟨-, ⟨-, -, ⟨relay, hrun, hsettled⟩, -⟩, -⟩ :=
    @run_accounted _ brittle _ [0, 1] results 0 .refl
  obtain ⟨-, ⟨-, hgone, -⟩, hend⟩ := run_accounted [0, 1] results 0 hrun
  obtain ⟨hstage, -⟩ := hend hsettled
  refine ⟨relay, hrun, hsettled, hstage, hgone ?_⟩
  rw [hstage]
  rfl

end Relay

end TreeAudit.Output
