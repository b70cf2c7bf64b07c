import TreeAudit.Proofs.Check.Tells

/-!
Calls of checks whose receiver may leave at any moment. Such a call sends what it has to say up to
the first entry that is refused, and fails then because the receiver has gone (`Offers`). While the
receiver stays it says all of it (`Offers.tells`). Calls made in turn offer what each has to say,
one after the other (`Offers.inTurn`), and so does a composite of checks that do not fail otherwise
(`offers_process_group`, `offers_finish_group`).
-/

set_option autoImplicit false
set_option relaxedAutoImplicit false

namespace TreeAudit.Check

open Report

variable {σ τ ι : Type}

/-- From any outlet the call sends the entries, up to the first that is refused. If none is, it
leaves the state and ends well, and otherwise it fails for the loss of the receiver. -/
def Offers (call : Outlet → Answer σ) (state : σ) (said : List Entry) : Prop :=
  ∀ outlet, ∃ left, call outlet =
    ⟨if (outlet.sendAll said).2 then state else left, (outlet.sendAll said).1,
      if (outlet.sendAll said).2 then none else some .receiverGone⟩

namespace Offers

variable {call : Outlet → Answer σ} {state : σ} {said : List Entry}

theorem tells (h : Offers call state said) : Tells call state said none := by
  intro outlet hopen
  obtain ⟨left, hcall⟩ := h outlet
  rw [hcall, Outlet.sendAll_of_open hopen, if_pos rfl, if_pos rfl]

theorem silent (state : σ) : Offers (fun outlet ↦ ⟨state, outlet, none⟩) state [] :=
  fun _ ↦ ⟨state, rfl⟩

theorem sending (state : σ) (entries : List Entry) :
    Offers (fun outlet ↦ .sending state outlet entries) state entries :=
  fun outlet ↦ ⟨state, by dsimp only; rw [Answer.sending_eq, ite_self]⟩

theorem map (f : σ → τ) (h : Offers call state said) :
    Offers (fun outlet ↦ (call outlet).map f) (f state) said := by
  intro outlet
  obtain ⟨left, hcall⟩ := h outlet
  refine ⟨f left, ?_⟩
  dsimp only
  rw [hcall, Answer.map, apply_ite f]

/-- There is nothing but the loss of the receiver to be reported. -/
theorem absorb (report : σ → Failure → Finding) (h : Offers call state said) :
    Offers (fun outlet ↦ absorb (report (call outlet).state) (call outlet)) state said := by
  intro outlet
  obtain ⟨left, hcall⟩ := h outlet
  refine ⟨left, ?_⟩
  dsimp only
  rw [hcall]
  cases (outlet.sendAll said).2 <;> rfl

/-- Calls made in turn offer what each has to say. -/
theorem inTurn {call : σ → Outlet → Answer σ} {part next : ι → σ} {said : ι → List Entry}
    {items : List ι} (h : ∀ item ∈ items, Offers (call (part item)) (next item) (said item)) :
    Offers (Check.inTurn call (items.map part)) (items.map next) (items.flatMap said) := by
  induction items with
  | nil => exact silent []
  | cons item rest ih =>
    obtain ⟨hitem, hrest⟩ := List.forall_mem_cons.mp h
    intro outlet
    obtain ⟨left, hcall⟩ := hitem outlet
    obtain ⟨others, hothers⟩ := ih hrest (outlet.sendAll (said item)).1
    rw [List.map_cons, Check.inTurn, hcall, List.flatMap_cons, Outlet.sendAll_append]
    cases haccepted : (outlet.sendAll (said item)).2 with
    | false => exact ⟨left :: rest.map part, by simp [haccepted]⟩
    | true =>
      refine ⟨next item :: others, ?_⟩
      simp only [if_true, hothers, Answer.map, apply_ite (next item :: ·), List.map_cons]

end Offers

namespace Composite

variable {machine : Machine σ} {now : Duration} {document : Document}

theorem offers_process_single {check next : σ} {said : List Entry}
    (h : Offers (machine.process now document check) next said) :
    Offers (process machine now document (.single check)) (.single next) said := by
  intro outlet
  rw [process]
  exact h.map single outlet

theorem offers_finish_single {check next : σ} {said : List Entry}
    (h : Offers (machine.finish now check) next said) :
    Offers (finish machine now (.single check)) (.single next) said := by
  intro outlet
  rw [finish]
  exact h.map single outlet

variable {part next : ι → Composite σ} {said : ι → List Entry} {items : List ι}

/-- A composite on a document. -/
theorem offers_process_group
    (h : ∀ item ∈ items, Offers (process machine now document (part item)) (next item)
      (said item)) :
    Offers (process machine now document (.group (items.map part))) (.group (items.map next))
      (items.flatMap said) := by
  intro outlet
  rw [process, processParts_eq_inTurn]
  exact Offers.map group (Offers.inTurn fun item hitem ↦
    (h item hitem).absorb fun state ↦ processFailure (state.name machine) document) outlet

/-- A composite at the end. -/
theorem offers_finish_group
    (h : ∀ item ∈ items, Offers (finish machine now (part item)) (next item) (said item)) :
    Offers (finish machine now (.group (items.map part))) (.group (items.map next))
      (items.flatMap said) := by
  intro outlet
  rw [finish, finishParts_eq_inTurn]
  exact Offers.map group (Offers.inTurn fun item hitem ↦
    (h item hitem).absorb fun state ↦ finishFailure (state.name machine)) outlet

end Composite

end TreeAudit.Check
