import TreeAudit.Output.Sink

/-!
The writer gives each entry of a report to every sink, in order, up to the mark
that closes the report, and closes every sink once. A sink that fails is counted
and given the next entry all the same. A sink that crashes ends the writing at
once, and the sinks are closed even so.
-/

set_option autoImplicit false
set_option relaxedAutoImplicit false

namespace TreeAudit.Output

open Report

/-- What the writer counts. -/
structure Tally where
  rendered : Nat := 0
  findings : Nat := 0
  sinkErrors : Nat := 0
  sawEnd : Bool := false
deriving DecidableEq

namespace Writer

variable {σ : Type} (sink : Sink σ)

/-- Gives an entry to the sinks in order, up to one that crashes. Returns the
sinks, the number of failures, and whether all were given the entry. -/
def offer (entry : Entry) : List σ → List σ × Nat × Bool
  | [] => ([], 0, true)
  | first :: rest =>
    match sink.write entry first with
    | (first, .crashed) => (first :: rest, 0, false)
    | (first, .failed) =>
      let (rest, failures, whole) := offer entry rest
      (first :: rest, failures + 1, whole)
    | (first, .done) =>
      let (rest, failures, whole) := offer entry rest
      (first :: rest, failures, whole)

/-- Closes the sinks. Returns them and the number of failures. -/
def closeAll (sinks : List σ) : List σ × Nat :=
  let closed := sinks.map sink.close
  (closed.map Prod.fst, (closed.filter fun c ↦ !c.2).length)

/-- What the writer leaves behind; no tally if a sink crashed. -/
structure Finished (σ : Type) where
  sinks : List σ
  tally : Option Tally

def finish (sinks : List σ) (tally : Tally) : Finished σ :=
  let (sinks, failures) := closeAll sink sinks
  ⟨sinks, some { tally with sinkErrors := tally.sinkErrors + failures }⟩

def abandon (sinks : List σ) : Finished σ := ⟨(closeAll sink sinks).1, none⟩

def count (entry : Entry) (failures : Nat) (tally : Tally) : Tally :=
  { tally with
    rendered := tally.rendered + 1
    findings := tally.findings + if entry.isFinding then 1 else 0
    sinkErrors := tally.sinkErrors + failures }

/-- Writes the entries of a report to sinks, continuing a tally. -/
def writeFrom (tally : Tally) (sinks : List σ) : List Entry → Finished σ
  | [] => finish sink sinks tally
  | .closing :: _ => finish sink sinks { tally with sawEnd := true }
  | entry :: rest =>
    match offer sink entry sinks with
    | (sinks, failures, true) => writeFrom (count entry failures tally) sinks rest
    | (sinks, _, false) => abandon sink sinks

/-- Writes the entries of a report to sinks. -/
def write (sinks : List σ) (entries : List Entry) : Finished σ :=
  writeFrom sink {} sinks entries

end Writer

end TreeAudit.Output
