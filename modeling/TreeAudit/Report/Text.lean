import TreeAudit.Report.Entry

/-!
Entries as a person reads them.
-/

set_option autoImplicit false
set_option relaxedAutoImplicit false

namespace TreeAudit.Report

def Finding.text (finding : Finding) : String :=
  let subject := match finding.id with
    | some id => " " ++ id.text
    | none => ""
  "[" ++ finding.severity.label ++ "] " ++ finding.check ++ subject ++ ": " ++
    finding.description

/-- The share is shown in percent with one place. -/
def Progress.text (progress : Progress) : String :=
  let done := match progress.fraction with
    | some fraction => " done=" ++ Numeric.Decimal.fixed 1 (fraction * .ofNat 100) ++ "%"
    | none => ""
  let eta := match progress.remaining with
    | .untracked => ""
    | .unknown => " eta=unknown"
    | .known time => " eta=" ++ time.text
  "progress processed=" ++ toString progress.processed ++ done ++
    " elapsed=" ++ progress.elapsed.text ++ eta

def Entry.text : Entry → String
  | finding f => f.text
  | status text => text
  | progress p => p.text
  | closing => "end"

end TreeAudit.Report
