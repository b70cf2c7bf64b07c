import TreeAudit.Check.Machine

/-!
Several checks run as one, in order. A check that fails is reported by a finding
in its name and the others go on; only the loss of the receiver ends the call at
once. Composites nest.
-/

set_option autoImplicit false
set_option relaxedAutoImplicit false

namespace TreeAudit.Check

open Report

/-- A check, or a list of composites run in order. -/
inductive Composite (σ : Type) where
  | single (check : σ)
  | group (parts : List (Composite σ))

/-- The finding for a check that failed on a document. -/
def processFailure (check : String) (document : Document) (failure : Failure) : Finding where
  check := check
  severity := .error
  id := some document.id
  parent := document.parent
  description := "check failed: " ++ failure.message

/-- The finding for a check that failed at the end of the scan. -/
def finishFailure (check : String) (failure : Failure) : Finding where
  check := check
  severity := .error
  id := none
  parent := none
  description := "finalize failed: " ++ failure.message

/-- Turns the failure of one check into a finding. The loss of the receiver
stays a failure, and so does a finding that is refused. -/
def absorb {σ : Type} (report : Failure → Finding) (answer : Answer σ) : Answer σ :=
  match answer.failure with
  | none => answer
  | some .receiverGone => answer
  | some failure => .sending answer.state answer.outlet [.finding (report failure)]

namespace Composite

variable {σ : Type} (machine : Machine σ)

def name : Composite σ → String
  | single check => machine.name check
  | group _ => "composite"

mutual

def process (now : Duration) (document : Document) : Composite σ → Outlet → Answer (Composite σ)
  | single check, outlet => (machine.process now document check outlet).map single
  | group parts, outlet => (processParts now document parts outlet).map group

def processParts (now : Duration) (document : Document) :
    List (Composite σ) → Outlet → Answer (List (Composite σ))
  | [], outlet => ⟨[], outlet, none⟩
  | part :: rest, outlet =>
    let called := process now document part outlet
    let answer :=
      absorb (processFailure (called.state.name machine) document) called
    match answer.failure with
    | some failure => ⟨answer.state :: rest, answer.outlet, some failure⟩
    | none => (processParts now document rest answer.outlet).map (answer.state :: ·)

end

mutual

def finish (now : Duration) : Composite σ → Outlet → Answer (Composite σ)
  | single check, outlet => (machine.finish now check outlet).map single
  | group parts, outlet => (finishParts now parts outlet).map group

def finishParts (now : Duration) :
    List (Composite σ) → Outlet → Answer (List (Composite σ))
  | [], outlet => ⟨[], outlet, none⟩
  | part :: rest, outlet =>
    let called := finish now part outlet
    let answer := absorb (finishFailure (called.state.name machine)) called
    match answer.failure with
    | some failure => ⟨answer.state :: rest, answer.outlet, some failure⟩
    | none => (finishParts now rest answer.outlet).map (answer.state :: ·)

end

/-- The composite as a check of its own. -/
def machineOf : Machine (Composite σ) where
  name := name machine
  process := process machine
  finish := finish machine

end Composite

end TreeAudit.Check
