import TreeAudit.Csv.Record
import TreeAudit.Report.Entry

/-!
Entries as records of ten columns. The columns that do not apply to an entry
stay empty, and the mark that closes the stream has no record.
-/

set_option autoImplicit false
set_option relaxedAutoImplicit false

namespace TreeAudit.Report

/-- Positive exponents are written without a sign. -/
def csvNumber : Numeric.Decimal.Layout where
  signOfPositiveExponent := ""
  infinite := "inf"
  nan := "NaN"

namespace Csv

def header : List String :=
  ["kind", "check", "severity", "id", "parent", "text", "processed", "fraction",
    "elapsed_secs", "eta_secs"]

def number (x : Binary64) : String := Numeric.Decimal.shortestText csvNumber x

def id (id : Option DocumentId) : String := (id.map DocumentId.text).getD ""

def remaining : Remaining → String
  | .known time => number time.toSeconds
  | _ => ""

end Csv

/-- The columns of an entry, if it has a record. -/
def Entry.columns? : Entry → Option (List String)
  | finding f =>
    some ["finding", f.check, f.severity.label, Csv.id f.id, Csv.id f.parent, f.description,
      "", "", "", ""]
  | status text => some ["status", "", "", "", "", text, "", "", "", ""]
  | progress p =>
    some ["progress", "", "", "", "", "", toString p.processed,
      (p.fraction.map Csv.number).getD "", Csv.number p.elapsed.toSeconds,
      Csv.remaining p.remaining]
  | closing => none

end TreeAudit.Report
