import TreeAudit.Csv.Record
import TreeAudit.Report.Csv
import TreeAudit.Report.Json
import TreeAudit.Report.Text

/-!
The forms a report file can have: readable text, one JSON object per line, or
comma-separated records under a header.
-/

set_option autoImplicit false
set_option relaxedAutoImplicit false

namespace TreeAudit.Output

open Report

inductive Format where
  | text
  | jsonLines
  | csv
deriving DecidableEq

namespace Format

def label : Format → String
  | text => "text"
  | jsonLines => "jsonl"
  | csv => "csv"

def all : List Format := [text, jsonLines, csv]

/-- What a file of this form begins with. -/
def opening : Format → String
  | csv => Csv.Record.line Csv.header
  | _ => ""

/-- What an entry adds to a file of this form. -/
def line (entry : Entry) : Format → String
  | text => entry.text ++ "\n"
  | jsonLines => entry.json ++ "\n"
  | csv => (entry.columns?.map Csv.Record.line).getD ""

end Format

end TreeAudit.Output
