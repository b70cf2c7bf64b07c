import TreeAudit.Check.Composite
import TreeAudit.Proofs.Check.Outlet

/-!
Calls of checks while the receiver stays. What such a call does is told by the state it
leaves, by what it says, whatever was said before, and by its failure (`Tells`). Calls made in
turn say one after the other what each of them says (`Tells.inTurn`), so a composite says what
its parts say in their order, and after each that fails a finding in its name
(`tells_process_group`, `tells_finish_group`).
-/

set_option autoImplicit false
set_option relaxedAutoImplicit false

namespace TreeAudit.Check

open Report

variable {σ τ ι : Type}

/-- From any open outlet the call leaves the state, adds the entries to what was sent, and
ends with the failure. -/
def Tells (call : Outlet → Answer σ) (state : σ) (said : List Entry) (failure : Option Failure) :
    Prop :=
  ∀ outlet, outlet.room = none → call outlet = ⟨state, ⟨outlet.sent ++ said.toArray, none⟩, failure⟩

/-- What is reported of a call whose failure becomes a finding. -/
def reported (report : Failure → Finding) (said : List Entry) (failure : Option Failure) :
    List Entry :=
  said ++ failure.toList.map fun failure ↦ .finding (report failure)

@[simp] theorem reported_none (report : Failure → Finding) (said : List Entry) :
    reported report said none = said := List.append_nil said

/-- Makes a call for each part in order, up to one that fails. -/
def inTurn (call : σ → Outlet → Answer σ) : List σ → Outlet → Answer (List σ)
  | [], outlet => ⟨[], outlet, none⟩
  | part :: rest, outlet =>
    let answer := call part outlet
    match answer.failure with
    | some failure => ⟨answer.state :: rest, answer.outlet, some failure⟩
    | none => (inTurn call rest answer.outlet).map (answer.state :: ·)

namespace Tells

variable {call : Outlet → Answer σ} {state : σ} {said : List Entry} {failure : Option Failure}

theorem silent (state : σ) (failure : Option Failure) :
    Tells (fun outlet ↦ ⟨state, outlet, failure⟩) state [] failure := by
  rintro ⟨sent, room⟩ rfl
  simp

theorem map (f : σ → τ) (h : Tells call state said failure) :
    Tells (fun outlet ↦ (call outlet).map f) (f state) said failure := by
  intro outlet hopen
  dsimp only
  rw [h outlet hopen]
  rfl

/-- A failure other than the loss of the receiver becomes a finding. -/
theorem absorb (report : σ → Failure → Finding) (h : Tells call state said failure)
    (hstays : failure ≠ some .receiverGone) :
    Tells (fun outlet ↦ absorb (report (call outlet).state) (call outlet)) state
      (reported (report state) said failure) none := by
  intro outlet hopen
  dsimp only
  rw [h outlet hopen, Check.absorb]
  cases failure with
  | none => simp [reported]
  | some cause =>
    cases cause with
    | receiverGone => exact absurd rfl hstays
    | worker reason => simp [reported, Answer.sending_of_open]
    | other reason => simp [reported, Answer.sending_of_open]

/-- Calls of which none fails say in turn what each says. -/
theorem inTurn {call : σ → Outlet → Answer σ} {part next : ι → σ} {said : ι → List Entry}
    {items : List ι} (h : ∀ item ∈ items, Tells (call (part item)) (next item) (said item) none) :
    Tells (Check.inTurn call (items.map part)) (items.map next) (items.flatMap said) none := by
  induction items with
  | nil => exact silent [] none
  | cons item rest ih =>
    obtain ⟨hitem, hrest⟩ := List.forall_mem_cons.mp h
    intro outlet hopen
    rw [List.map_cons, Check.inTurn, hitem outlet hopen]
    dsimp only
    rw [ih hrest _ rfl, List.flatMap_cons, ← List.append_toArray, ← Array.append_assoc]
    rfl

end Tells

namespace Composite

variable {machine : Machine σ} {now : Duration} {document : Document}

theorem processParts_eq_inTurn (parts : List (Composite σ)) (outlet : Outlet) :
    processParts machine now document parts outlet =
      inTurn (fun part outlet ↦
        absorb (processFailure ((process machine now document part outlet).state.name machine)
          document) (process machine now document part outlet)) parts outlet := by
  induction parts generalizing outlet with
  | nil => rw [processParts, inTurn]
  | cons part rest ih =>
    rw [processParts, inTurn]
    generalize absorb _ (process machine now document part outlet) = answer
    obtain ⟨state, outlet, _ | failure⟩ := answer
    · exact congrArg (Answer.map (state :: ·)) (ih outlet)
    · rfl

theorem finishParts_eq_inTurn (parts : List (Composite σ)) (outlet : Outlet) :
    finishParts machine now parts outlet =
      inTurn (fun part outlet ↦
        absorb (finishFailure ((finish machine now part outlet).state.name machine))
          (finish machine now part outlet)) parts outlet := by
  induction parts generalizing outlet with
  | nil => rw [finishParts, inTurn]
  | cons part rest ih =>
    rw [finishParts, inTurn]
    generalize absorb _ (finish machine now part outlet) = answer
    obtain ⟨state, outlet, _ | failure⟩ := answer
    · exact congrArg (Answer.map (state :: ·)) (ih outlet)
    · rfl

theorem tells_process_single {check next : σ} {said : List Entry} {failure : Option Failure}
    (h : Tells (machine.process now document check) next said failure) :
    Tells (process machine now document (.single check)) (.single next) said failure := by
  intro outlet hopen
  rw [process]
  exact h.map single outlet hopen

theorem tells_finish_single {check next : σ} {said : List Entry} {failure : Option Failure}
    (h : Tells (machine.finish now check) next said failure) :
    Tells (finish machine now (.single check)) (.single next) said failure := by
  intro outlet hopen
  rw [finish]
  exact h.map single outlet hopen

variable {part next : ι → Composite σ} {said : ι → List Entry} {failure : ι → Option Failure}
  {items : List ι}

/-- A composite on a document. -/
theorem tells_process_group
    (htells : ∀ item ∈ items,
      Tells (process machine now document (part item)) (next item) (said item) (failure item))
    (hstays : ∀ item ∈ items, failure item ≠ some .receiverGone) :
    Tells (process machine now document (.group (items.map part))) (.group (items.map next))
      (items.flatMap fun item ↦
        reported (processFailure ((next item).name machine) document) (said item) (failure item))
      none := by
  intro outlet hopen
  rw [process, processParts_eq_inTurn]
  refine Tells.map group (Tells.inTurn fun item hitem ↦ ?_) outlet hopen
  exact (htells item hitem).absorb (fun state ↦ processFailure (state.name machine) document)
    (hstays item hitem)

/-- A composite at the end. -/
theorem tells_finish_group
    (htells : ∀ item ∈ items,
      Tells (finish machine now (part item)) (next item) (said item) (failure item))
    (hstays : ∀ item ∈ items, failure item ≠ some .receiverGone) :
    Tells (finish machine now (.group (items.map part))) (.group (items.map next))
      (items.flatMap fun item ↦
        reported (finishFailure ((next item).name machine)) (said item) (failure item)) none := by
  intro outlet hopen
  rw [finish, finishParts_eq_inTurn]
  refine Tells.map group (Tells.inTurn fun item hitem ↦ ?_) outlet hopen
  exact (htells item hitem).absorb (fun state ↦ finishFailure (state.name machine))
    (hstays item hitem)

end Composite

end TreeAudit.Check
