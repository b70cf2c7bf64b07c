import TreeAudit.Document.Basic
import TreeAudit.Duration

/-!
Entries of the report stream: findings, status lines and progress updates, and
the mark that closes the stream.
-/

set_option autoImplicit false
set_option relaxedAutoImplicit false

namespace TreeAudit.Report

/-- Corruption is structural damage of the store itself. -/
inductive Severity where
  | info
  | warning
  | error
  | corruption
deriving DecidableEq

def Severity.label : Severity → String
  | info => "info"
  | warning => "warning"
  | error => "error"
  | corruption => "corruption"

/-- An issue found by a check, with the document it concerns and the parent that
document points at, where there are such. -/
structure Finding where
  check : String
  severity : Severity
  id : Option DocumentId
  parent : Option DocumentId
  description : String
deriving DecidableEq

/-- The projected remaining time: not asked for, asked for but not known, or
known. -/
inductive Remaining where
  | untracked
  | unknown
  | known (time : Duration)
deriving DecidableEq

structure Progress where
  processed : Nat
  /-- The share that is done, where the total is estimated. -/
  fraction : Option Binary64
  elapsed : Duration
  remaining : Remaining
deriving DecidableEq

inductive Entry where
  | finding (finding : Finding)
  | status (text : String)
  | progress (progress : Progress)
  /-- Closes the stream and is never shown. -/
  | closing
deriving DecidableEq

namespace Entry

def isFinding : Entry → Bool
  | finding _ => true
  | _ => false

/-- The word by which machine-readable output tells the kinds of entry apart. -/
def label : Entry → String
  | finding _ => "finding"
  | status _ => "status"
  | progress _ => "progress"
  | closing => "end"

end Entry

end TreeAudit.Report
