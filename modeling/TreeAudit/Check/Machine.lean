import TreeAudit.Report.Entry

/-!
Checks as state machines. A check is told the time and either the next document
or that there are no more, and answers with its next state, with what it has
sent to the report, and with a failure if there was one. Sending can be refused:
the receiving side may go away at any moment, after which it takes nothing more.
-/

set_option autoImplicit false
set_option relaxedAutoImplicit false

namespace TreeAudit.Check

open Report

/-- Why a call of a check failed. Only the first cause ends a run. -/
inductive Failure where
  | receiverGone
  | worker (reason : String)
  | other (reason : String)
deriving DecidableEq

def Failure.message : Failure → String
  | receiverGone => "result queue closed"
  | worker reason => "worker failure: " ++ reason
  | other reason => reason

/-- The sending end of the report stream: what was accepted so far, and how many
more entries will be accepted if the receiver is going to leave. -/
structure Outlet where
  sent : Array Entry
  room : Option Nat

namespace Outlet

/-- An outlet whose receiver stays. -/
def unbounded : Outlet := ⟨#[], none⟩

/-- The receiver has gone. -/
def close (outlet : Outlet) : Outlet := { outlet with room := some 0 }

/-- Sends an entry, and tells whether it was accepted. -/
def send (outlet : Outlet) (entry : Entry) : Outlet × Bool :=
  match outlet.room with
  | none => (⟨outlet.sent.push entry, none⟩, true)
  | some 0 => (outlet, false)
  | some (room + 1) => (⟨outlet.sent.push entry, some room⟩, true)

/-- Sends entries in order up to the first that is refused. -/
def sendAll (outlet : Outlet) : List Entry → Outlet × Bool
  | [] => (outlet, true)
  | entry :: rest =>
    match outlet.send entry with
    | (outlet, true) => outlet.sendAll rest
    | (outlet, false) => (outlet, false)

end Outlet

/-- What a call leaves behind. -/
structure Answer (σ : Type) where
  state : σ
  outlet : Outlet
  failure : Option Failure

namespace Answer

variable {σ : Type}

/-- The answer of a call that ends by sending `entries`. -/
def sending (state : σ) (outlet : Outlet) (entries : List Entry) : Answer σ :=
  let (outlet, accepted) := outlet.sendAll entries
  ⟨state, outlet, if accepted then none else some .receiverGone⟩

def map {τ : Type} (f : σ → τ) (answer : Answer σ) : Answer τ :=
  ⟨f answer.state, answer.outlet, answer.failure⟩

end Answer

/-- A check over states `σ`. Times are measured from one common start. -/
structure Machine (σ : Type) where
  name : σ → String
  process : (now : Duration) → Document → σ → Outlet → Answer σ
  finish : (now : Duration) → σ → Outlet → Answer σ

end TreeAudit.Check
