import TreeAudit.Json.Quoted
import TreeAudit.Report.Entry

/-!
Entries as JSON objects, tagged by their kind, with the members of each kind in
a fixed order. Absent ids are null. Times are numbers of seconds; a remaining
time that was not asked for is null and an unknown one is a word.
-/

set_option autoImplicit false
set_option relaxedAutoImplicit false

namespace TreeAudit.Report

/-- Positive exponents are written with their sign, and what is no number is
null. -/
def jsonNumber : Numeric.Decimal.Layout where
  signOfPositiveExponent := "+"
  infinite := "null"
  nan := "null"

namespace Json

open TreeAudit.Json

def number (x : Binary64) : String := Numeric.Decimal.shortestText jsonNumber x

def orNull {α : Type} (write : α → String) : Option α → String
  | some x => write x
  | none => "null"

def id (id : Option DocumentId) : String := orNull (fun id ↦ Quoted.quote id.text) id

def remaining : Remaining → String
  | .untracked => "null"
  | .unknown => Quoted.quote "unknown"
  | .known time => number time.toSeconds

/-- An object with the given members, whose values are already written. -/
def object (members : List (String × String)) : String :=
  "\x7b" ++ ",".intercalate (members.map fun (name, value) ↦ Quoted.quote name ++ ":" ++ value)
    ++ "\x7d"

end Json

open TreeAudit.Json in
/-- The members of an entry with their written values. -/
def Entry.members : Entry → List (String × String)
  | finding f =>
    [("type", Quoted.quote "finding"), ("check", Quoted.quote f.check),
      ("severity", Quoted.quote f.severity.label), ("id", Json.id f.id),
      ("parent", Json.id f.parent), ("description", Quoted.quote f.description)]
  | status text => [("type", Quoted.quote "status"), ("text", Quoted.quote text)]
  | progress p =>
    [("type", Quoted.quote "progress"), ("processed", toString p.processed),
      ("fraction", Json.orNull Json.number p.fraction),
      ("elapsed_secs", Json.number p.elapsed.toSeconds),
      ("eta_secs", Json.remaining p.remaining)]
  | closing => [("type", Quoted.quote "end")]

def Entry.json (entry : Entry) : String := Json.object entry.members

end TreeAudit.Report
