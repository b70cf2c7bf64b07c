import TreeAudit.Proofs.Check.Tells
import Mathlib.Data.List.Induction

/-!
Checks that run as one do not affect one another. A check is called with documents and with the
end (`Call`), and one that does nothing with its outlet but send (`OnlySends`) goes by its state
alone. In a composite of such checks each goes through the states it would go through on its own,
and what the composite sends for a call is what each check sends, in their order, each time
followed by a finding in its name if the check failed; no call of the composite fails while the
receiver stays, and none ever fails but for the loss of the receiver
(`answer_after_ofChecks`).
-/

set_option autoImplicit false
set_option relaxedAutoImplicit false

namespace TreeAudit.Check

open Report

variable {σ : Type}

/-- What a check is called with: a document, or the end. -/
inductive Call where
  | document (now : Duration) (document : Document)
  | finish (now : Duration)

namespace Call

/-- The document a check is called with. -/
def document? : Call → Option Document
  | .document _ met => some met
  | .finish _ => none

/-- What went wrong where a check fails. -/
def complaint : Call → String
  | .document _ _ => "check failed: "
  | .finish _ => "finalize failed: "

/-- The finding about a check that failed: in its name, with the document it failed on. -/
def blame (call : Call) (check : String) (failure : Failure) : Finding where
  check := check
  severity := .error
  id := call.document?.map Document.id
  parent := call.document?.bind Document.parent
  description := call.complaint ++ failure.message

end Call

namespace Machine

variable (machine : Machine σ)

def answer : Call → σ → Outlet → Answer σ
  | .document now document => machine.process now document
  | .finish now => machine.finish now

/-- The state and the outlet that calls leave which are made in turn, whether they fail or not. -/
def after (calls : List Call) (state : σ) (outlet : Outlet) : σ × Outlet :=
  calls.foldl (fun reached call ↦
    ((machine.answer call reached.1 reached.2).state,
      (machine.answer call reached.1 reached.2).outlet)) (state, outlet)

/-- A check that does nothing with its outlet but send: as long as the receiver stays, its next
state, what it sends and how it fails, if not for the loss of the receiver, hang on its state and
on the call. -/
def OnlySends : Prop :=
  ∀ call state, ∃ next said failure,
    Tells (machine.answer call state) next said failure ∧ failure ≠ some .receiverGone

/-- What a call does to a check on its own. -/
def alone (call : Call) (state : σ) : Answer σ := machine.answer call state .unbounded

/-- The state of a check on its own after calls. -/
def reached (calls : List Call) (state : σ) : σ := (machine.after calls state .unbounded).1

theorem after_concat (calls : List Call) (call : Call) (state : σ) (outlet : Outlet) :
    machine.after (calls ++ [call]) state outlet =
      ((machine.answer call (machine.after calls state outlet).1
          (machine.after calls state outlet).2).state,
        (machine.answer call (machine.after calls state outlet).1
          (machine.after calls state outlet).2).outlet) := by
  rw [after, List.foldl_append]
  rfl

end Machine

theorem Outlet.room_unbounded : Outlet.unbounded.room = none := rfl

/-- A call tells what it tells a fresh receiver. -/
theorem Tells.eq_unbounded {call : Outlet → Answer σ} {state : σ} {said : List Entry}
    {failure : Option Failure} (h : Tells call state said failure) :
    state = (call .unbounded).state ∧ said = (call .unbounded).outlet.sent.toList ∧
      failure = (call .unbounded).failure := by
  rw [h .unbounded rfl]
  simp [Outlet.unbounded]

namespace Machine.OnlySends

variable {machine : Machine σ}

theorem tells_alone (hmachine : machine.OnlySends) (call : Call) (state : σ) :
    Tells (machine.answer call state) (machine.alone call state).state
        (machine.alone call state).outlet.sent.toList (machine.alone call state).failure ∧
      (machine.alone call state).failure ≠ some .receiverGone := by
  obtain ⟨next, said, failure, htells, hstays⟩ := hmachine call state
  obtain ⟨rfl, rfl, rfl⟩ := htells.eq_unbounded
  exact ⟨htells, hstays⟩

/-- The receiver staying, it is still there after calls, and the state is that of a check on its
own. -/
theorem after_eq (hmachine : machine.OnlySends) (calls : List Call) (state : σ) {outlet : Outlet}
    (hopen : outlet.room = none) :
    (machine.after calls state outlet).1 = machine.reached calls state ∧
      (machine.after calls state outlet).2.room = none := by
  induction calls using List.reverseRecOn generalizing outlet with
  | nil => exact ⟨rfl, hopen⟩
  | append_singleton calls call ih =>
    obtain ⟨hstate, hroom⟩ := ih hopen
    obtain ⟨hstate', hroom'⟩ := ih Outlet.room_unbounded
    have htells := (hmachine.tells_alone call (machine.reached calls state)).1
    rw [reached, after_concat, after_concat, hstate, hstate', htells _ hroom, htells _ hroom']
    exact ⟨rfl, rfl⟩

theorem reached_concat (hmachine : machine.OnlySends) (calls : List Call) (call : Call)
    (state : σ) :
    machine.reached (calls ++ [call]) state =
      (machine.alone call (machine.reached calls state)).state := by
  obtain ⟨hstate, hroom⟩ := hmachine.after_eq calls state Outlet.room_unbounded
  have htells := (hmachine.tells_alone call (machine.reached calls state)).1
  rw [reached, after_concat, hstate, htells _ hroom]

end Machine.OnlySends

namespace Machine

variable (machine : Machine σ)

/-- The check, keeping a list of its calls. -/
def recording : Machine (σ × List Call) where
  name state := machine.name state.1
  process now document state outlet :=
    (machine.process now document state.1 outlet).map (·, state.2 ++ [.document now document])
  finish now state outlet :=
    (machine.finish now state.1 outlet).map (·, state.2 ++ [.finish now])

variable {machine}

theorem answer_recording (call : Call) (state : σ × List Call) (outlet : Outlet) :
    machine.recording.answer call state outlet =
      (machine.answer call state.1 outlet).map (·, state.2 ++ [call]) := by
  cases call <;> rfl

theorem OnlySends.recording (hmachine : machine.OnlySends) : machine.recording.OnlySends := by
  intro call state
  obtain ⟨next, said, failure, htells, hstays⟩ := hmachine call state.1
  refine ⟨(next, state.2 ++ [call]), said, failure, ?_, hstays⟩
  rw [funext (answer_recording call state)]
  exact htells.map (·, state.2 ++ [call])

theorem reached_recording (calls : List Call) (state : σ) :
    machine.recording.reached calls (state, []) = (machine.reached calls state, calls) := by
  suffices h : machine.recording.after calls (state, []) .unbounded =
      (((machine.after calls state .unbounded).1, calls),
        (machine.after calls state .unbounded).2) from congrArg Prod.fst h
  induction calls using List.reverseRecOn with
  | nil => rfl
  | append_singleton calls call ih =>
    rw [after_concat, after_concat, ih, answer_recording]
    rfl

end Machine

/-- Sending fails in one way only. -/
theorem Answer.failure_sending {state : σ} {outlet : Outlet} {entries : List Entry}
    {failure : Failure} (h : (sending state outlet entries).failure = some failure) :
    failure = .receiverGone := by
  rw [sending_eq] at h
  split_ifs at h
  exact (Option.some.inj h).symm

/-- What is left of failures that become findings is the loss of the receiver. -/
theorem failure_absorb {report : Failure → Finding} {answer : Answer σ} {failure : Failure}
    (h : (absorb report answer).failure = some failure) : failure = .receiverGone := by
  obtain ⟨state, outlet, cause⟩ := answer
  cases cause with
  | none => cases h
  | some cause =>
    cases cause with
    | receiverGone => exact (Option.some.inj h).symm
    | worker reason => exact Answer.failure_sending h
    | other reason => exact Answer.failure_sending h

/-- Calls made in turn fail as one of them does. -/
theorem failure_inTurn {call : σ → Outlet → Answer σ} {parts : List σ} {outlet : Outlet}
    {failure : Failure} (h : (inTurn call parts outlet).failure = some failure) :
    ∃ part outlet, (call part outlet).failure = some failure := by
  induction parts generalizing outlet with
  | nil => cases h
  | cons part rest ih =>
    rw [inTurn] at h
    cases hpart : (call part outlet).failure with
    | some cause =>
      rw [hpart] at h
      exact ⟨part, outlet, hpart.trans h⟩
    | none =>
      rw [hpart] at h
      exact ih h

namespace Composite

variable {machine : Machine σ}

/-- A composite calls its parts in turn, and a failure becomes the finding that blames the part. -/
theorem answer_group (call : Call) (parts : List (Composite σ)) (outlet : Outlet) :
    (machineOf machine).answer call (.group parts) outlet =
      (inTurn (fun part outlet ↦
        absorb (call.blame (((machineOf machine).answer call part outlet).state.name machine))
          ((machineOf machine).answer call part outlet)) parts outlet).map group := by
  cases call with
  | document now document =>
    change process machine now document (.group parts) outlet = _
    rw [process, processParts_eq_inTurn]
    rfl
  | finish now =>
    change finish machine now (.group parts) outlet = _
    rw [finish, finishParts_eq_inTurn]
    rfl

/-- No call of a composite fails but for the loss of the receiver. -/
theorem failure_answer_group {call : Call} {parts : List (Composite σ)} {outlet : Outlet}
    {failure : Failure}
    (h : ((machineOf machine).answer call (.group parts) outlet).failure = some failure) :
    failure = .receiverGone := by
  rw [answer_group] at h
  obtain ⟨part, outlet, hpart⟩ := failure_inTurn h
  exact failure_absorb hpart

/-- A composite stays one. -/
theorem after_group (machine : Machine σ) (calls : List Call) (parts : List (Composite σ))
    (outlet : Outlet) :
    ∃ parts', ((machineOf machine).after calls (.group parts) outlet).1 = .group parts' := by
  induction calls using List.reverseRecOn with
  | nil => exact ⟨parts, rfl⟩
  | append_singleton calls call ih =>
    obtain ⟨parts', hparts⟩ := ih
    rw [Machine.after_concat, hparts, answer_group]
    exact ⟨_, rfl⟩

/-- The checks as one. -/
def ofChecks (checks : List σ) : Composite σ := .group (checks.map .single)

/-- What a call has a composite send while the receiver stays: what each check sends on its own,
and after each that fails a finding in its name. -/
def sends (machine : Machine σ) (call : Call) (checks : List σ) : List Entry :=
  checks.flatMap fun check ↦
    reported (call.blame (machine.name (machine.alone call check).state))
      (machine.alone call check).outlet.sent.toList (machine.alone call check).failure

/-- A call does to each check of a composite what it does to the check on its own. -/
theorem tells_ofChecks (hmachine : machine.OnlySends) (call : Call) (checks : List σ) :
    Tells ((machineOf machine).answer call (ofChecks checks))
      (ofChecks (checks.map fun check ↦ (machine.alone call check).state))
      (sends machine call checks) none := by
  have hstays : ∀ check ∈ checks, (machine.alone call check).failure ≠ some .receiverGone :=
    fun check _ ↦ (hmachine.tells_alone call check).2
  rw [ofChecks, ofChecks, List.map_map]
  cases call with
  | document now document =>
    exact tells_process_group (fun check _ ↦
      tells_process_single (hmachine.tells_alone (.document now document) check).1) hstays
  | finish now =>
    exact tells_finish_group (fun check _ ↦
      tells_finish_single (hmachine.tells_alone (.finish now) check).1) hstays

theorem map_reached_concat (hmachine : machine.OnlySends) (calls : List Call) (call : Call)
    (checks : List σ) :
    (checks.map (machine.reached calls)).map (fun check ↦ (machine.alone call check).state) =
      checks.map (machine.reached (calls ++ [call])) := by
  rw [List.map_map]
  exact List.map_congr_left fun check _ ↦ (hmachine.reached_concat calls call check).symm

/-- The receiver staying, each check of a composite goes through the states it goes through on
its own. -/
theorem after_ofChecks (hmachine : machine.OnlySends) (calls : List Call) (checks : List σ)
    {outlet : Outlet} (hopen : outlet.room = none) :
    ((machineOf machine).after calls (ofChecks checks) outlet).1 =
        ofChecks (checks.map (machine.reached calls)) ∧
      ((machineOf machine).after calls (ofChecks checks) outlet).2.room = none := by
  induction calls using List.reverseRecOn with
  | nil => exact ⟨by rw [show machine.reached [] = id from rfl, List.map_id]; rfl, hopen⟩
  | append_singleton calls call ih =>
    obtain ⟨hchecks, hroom⟩ := ih
    -- the last call finds the checks where they would be on their own, and the outlet open
    have htells := tells_ofChecks hmachine call (checks.map (machine.reached calls))
    rw [Machine.after_concat, hchecks, htells _ hroom, map_reached_concat hmachine]
    exact ⟨rfl, rfl⟩

/-- Checks that only send, run as one. As long as the receiver stays, every call succeeds, takes
each check from the state it would be in on its own to the next, and sends what each check sends on
its own, in their order, and after each that fails a finding in its name; each check is called as
the composite is. Wherever the receiver goes away, a call that fails fails for that reason. -/
theorem answer_after_ofChecks (hmachine : machine.OnlySends) (checks : List σ)
    (calls : List Call) (call : Call) (outlet : Outlet) :
    let before := (machineOf machine).after calls (ofChecks checks) outlet
    let answer := (machineOf machine).answer call before.1 before.2
    (outlet.room = none →
      before.1 = ofChecks (checks.map (machine.reached calls)) ∧
        answer = ⟨ofChecks (checks.map (machine.reached (calls ++ [call]))),
          ⟨before.2.sent ++ (sends machine call (checks.map (machine.reached calls))).toArray,
            none⟩, none⟩ ∧
        ((machineOf machine.recording).after calls (ofChecks (checks.map (·, []))) outlet).1 =
          ofChecks (checks.map fun check ↦ (machine.reached calls check, calls))) ∧
      ∀ failure, answer.failure = some failure → failure = .receiverGone := by
  intro before answer
  refine ⟨fun hopen ↦ ?_, fun failure hfailure ↦ ?_⟩
  · obtain ⟨hbefore, hroom⟩ := after_ofChecks hmachine calls checks hopen
    refine ⟨hbefore, ?_, ?_⟩
    · have htells := tells_ofChecks hmachine call (checks.map (machine.reached calls))
      rw [map_reached_concat hmachine, ← hbefore] at htells
      exact htells before.2 hroom
    · rw [(after_ofChecks hmachine.recording calls _ hopen).1, List.map_map]
      exact congrArg ofChecks
        (List.map_congr_left fun check _ ↦ Machine.reached_recording calls check)
  · obtain ⟨parts, hparts⟩ := after_group machine calls (checks.map .single) outlet
    have hgroup : before.1 = .group parts := hparts
    change ((machineOf machine).answer call before.1 before.2).failure = some failure at hfailure
    rw [hgroup] at hfailure
    exact failure_answer_group hfailure

/-- A check that announces every document, and fails after every other one and at the end after an
odd number. -/
def fitful : Machine (String × ℕ) where
  name := Prod.fst
  process _ document state outlet :=
    (Answer.sending (state.1, state.2 + 1) outlet [.status document.id.text]).andThen
      fun state outlet ↦ ⟨state, outlet, if state.2 % 2 = 0 then some (.other "weary") else none⟩
  finish _ state outlet :=
    ⟨state, outlet, if state.2 % 2 = 0 then none else some (.worker "gone")⟩

theorem onlySends_fitful : fitful.OnlySends := by
  rintro (⟨now, document⟩ | now) state
  · refine ⟨(state.1, state.2 + 1), [.status document.id.text],
      if (state.2 + 1) % 2 = 0 then some (.other "weary") else none, fun outlet hopen ↦ ?_, ?_⟩
    · rw [Machine.answer]
      dsimp only [fitful]
      rw [Answer.sending_of_open _ hopen]
      rfl
    · split_ifs <;> exact nofun
  · refine ⟨state, [], if state.2 % 2 = 0 then none else some (.worker "gone"),
      Tells.silent state _, ?_⟩
    split_ifs <;> exact nofun

theorem answer_after_ofChecks_fitful :
    let met : Document := ⟨⟨"1:/a"⟩, some ⟨"0:/"⟩, .node, true⟩
    let composite := machineOf fitful
    let before := composite.after [.document .zero met] (ofChecks [("a", 0), ("b", 1)]) .unbounded
    let answer := composite.answer (.finish .zero) before.1 before.2
    fitful.OnlySends ∧ Outlet.unbounded.room = none ∧
      before.1 = ofChecks [("a", 1), ("b", 2)] ∧ answer.failure = none ∧
      before.2.sent.toList = [.status "1:/a", .status "1:/a",
        .finding ⟨"b", .error, some ⟨"1:/a"⟩, some ⟨"0:/"⟩, "check failed: weary"⟩] ∧
      answer.outlet.sent.toList = before.2.sent.toList ++
        [.finding ⟨"a", .error, none, none, "finalize failed: worker failure: gone"⟩] := by
  intro met composite before answer
  obtain ⟨hchecks, hanswer, -⟩ := (answer_after_ofChecks onlySends_fitful [("a", 0), ("b", 1)]
    [.document .zero met] (.finish .zero) .unbounded).1 rfl
  refine ⟨onlySends_fitful, rfl, hchecks, congrArg Answer.failure hanswer, by decide, ?_⟩
  refine (congrArg (fun answer ↦ answer.outlet.sent.toList) hanswer).trans ?_
  rw [Array.toList_append]
  exact congrArg (before.2.sent.toList ++ ·) (by decide)

end Composite

end TreeAudit.Check
