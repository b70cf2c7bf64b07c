import TreeAudit.Check.Machine

/-!
Counting documents by kind. The counts are reported once, at the end: a line for
each kind that occurred, in the order of the kinds, and then the total.
-/

set_option autoImplicit false
set_option relaxedAutoImplicit false

namespace TreeAudit.Check

open Report

structure Summary where
  started : Duration
  total : Nat
  nodes : Nat
  deleted : Nat
  splits : Nat

namespace Summary

def start (now : Duration) : Summary := ⟨now, 0, 0, 0, 0⟩

def count (summary : Summary) : Document.Kind → Nat
  | .node => summary.nodes
  | .deleted => summary.deleted
  | .split => summary.splits

/-- One more document, of this kind. -/
def add (summary : Summary) (kind : Document.Kind) : Summary :=
  let counted := { summary with total := summary.total + 1 }
  match kind with
  | .node => { counted with nodes := summary.nodes + 1 }
  | .deleted => { counted with deleted := summary.deleted + 1 }
  | .split => { counted with splits := summary.splits + 1 }

def kindLine (kind : Document.Kind) (count : Nat) : String :=
  "summary kind=" ++ kind.label ++ " documents=" ++ toString count

def totalLine (total : Nat) (elapsed : Duration) : String :=
  "summary total documents=" ++ toString total ++ " elapsed=" ++ elapsed.text

def lines (summary : Summary) (now : Duration) : List String :=
  ((Document.Kind.all.filter fun kind ↦ summary.count kind ≠ 0).map fun kind ↦
    kindLine kind (summary.count kind)) ++ [totalLine summary.total (now.since summary.started)]

def machine : Machine Summary where
  name := fun _ ↦ "summary"
  process := fun _ document summary outlet ↦ ⟨summary.add document.kind, outlet, none⟩
  finish := fun now summary outlet ↦
    .sending summary outlet ((summary.lines now).map Entry.status)

end Summary

end TreeAudit.Check
