import TreeAudit.Report.Entry

/-!
Projecting the remaining time from an estimated total: the time passed so far,
times the documents left, divided by the documents seen. The estimate is only
advice; a wrong one skews the projection and nothing else.
-/

set_option autoImplicit false
set_option relaxedAutoImplicit false

namespace TreeAudit.Report

/-- The total a store estimates, if it can tell one. -/
structure Estimate where
  total : Option Nat
deriving DecidableEq

namespace Estimate

/-- Unknown without a total, before the first document, and where the result
does not fit a duration. An estimate that is overshot leaves no time. -/
def remaining (estimate : Estimate) (seen : Nat) (elapsed : Duration) : Remaining :=
  match estimate.total with
  | some total =>
    if seen = 0 then .unknown
    else
      match Duration.ofSeconds?
          (elapsed.toSeconds * .ofNat (total - seen) / .ofNat seen) with
      | some time => .known time
      | none => .unknown
  | none => .unknown

/-- The share that is done, at most one; a total of zero is done at once. -/
def fraction (estimate : Estimate) (seen : Nat) : Option Binary64 :=
  estimate.total.map fun total ↦
    if total = 0 then .ofNat 1 else (.ofNat seen / .ofNat total : Binary64).capAtOne

end Estimate

/-- The update after `processed` documents, with a projection if there is an
estimate to project from. -/
def Progress.after (processed : Nat) (elapsed : Duration) (estimate : Option Estimate) :
    Progress where
  processed := processed
  fraction := estimate.bind fun e ↦ e.fraction processed
  elapsed := elapsed
  remaining :=
    match estimate with
    | some e => e.remaining processed elapsed
    | none => .untracked

end TreeAudit.Report
