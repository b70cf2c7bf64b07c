import TreeAudit.Check.Machine
import TreeAudit.Report.Projection

/-!
Progress updates, every so many documents or whenever a span of time has passed
since the last one, and once more at the end. Zero switches either cadence off.
-/

set_option autoImplicit false
set_option relaxedAutoImplicit false

namespace TreeAudit.Check

open Report

structure Progress where
  processed : Nat
  everyDocuments : Nat
  interval : Duration
  started : Duration
  lastUpdate : Duration
  estimate : Option Estimate

namespace Progress

def start (now : Duration) (everyDocuments : Nat) (interval : Duration)
    (estimate : Option Estimate) : Progress :=
  ⟨0, everyDocuments, interval, now, now, estimate⟩

def dueByCount (progress : Progress) : Bool :=
  progress.everyDocuments ≠ 0 && progress.processed % progress.everyDocuments = 0

def dueByTime (progress : Progress) (now : Duration) : Bool :=
  progress.interval ≠ .zero &&
    progress.interval.nanoseconds ≤ (now.since progress.lastUpdate).nanoseconds

def update (progress : Progress) (now : Duration) : Report.Progress :=
  .after progress.processed (now.since progress.started) progress.estimate

/-- An update that is refused does not count as the last one. -/
def process (now : Duration) (progress : Progress) (outlet : Outlet) : Answer Progress :=
  let counted := { progress with processed := progress.processed + 1 }
  if counted.dueByCount || counted.dueByTime now then
    match outlet.send (.progress (counted.update now)) with
    | (outlet, true) => ⟨{ counted with lastUpdate := now }, outlet, none⟩
    | (outlet, false) => ⟨counted, outlet, some .receiverGone⟩
  else ⟨counted, outlet, none⟩

def machine : Machine Progress where
  name := fun progress ↦ if progress.estimate.isSome then "eta" else "progress"
  process := fun now _ progress outlet ↦ process now progress outlet
  finish := fun now progress outlet ↦
    .sending progress outlet [.progress (progress.update now)]

end Progress

end TreeAudit.Check
