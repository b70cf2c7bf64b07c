import TreeAudit.Store.Basic

/-!
Reading the documents of a database page by page. The rows of a page are the next ones in the
order of their ids after the last id read. A page is read when the documents of the one before
it have all been taken. One that is not full is the last, and one with a row that gives no
document yields only the error and is the last too.
-/

set_option autoImplicit false
set_option relaxedAutoImplicit false

namespace TreeAudit.Store.Paging

/-- The name of the table that holds documents. -/
def nodes : String := "nodes"

def query : String := "SELECT id, data FROM nodes WHERE id > ?1 ORDER BY id LIMIT ?2"

/-- The columns that the query asks for, with their offsets in it. -/
def queried : List (String × Nat) := [("id", 7), ("data", 11)]

/-- The number of rows of a page, of which there is at least one. -/
def limit (batch : Nat) : Nat := max 1 batch

/-- The id and document of a row by the texts in its columns. -/
def rowDocument (id data : Except Database.Fault String) :
    Except Error (String × Document) := do
  match id with
  | .error fault => .error (.database fault)
  | .ok id =>
    match data with
    | .error fault => .error (.database fault)
    | .ok data =>
      match decode (some ⟨id⟩) data with
      | .error cause => .error (.protocol (.row ⟨id⟩ cause))
      | .ok document => .ok (id, document)

/-- The documents of the page after an id, with their ids. -/
abbrev Pages := String → Except Error (List (String × Document))

/-- A scan under way: the id after which it reads on, the documents read but not yet taken, and
whether the last page has been read. -/
structure Scan where
  after : String
  buffer : List Document
  finished : Bool

namespace Scan

/-- Before anything is read. -/
def start : Scan := ⟨"", [], false⟩

/-- Reads a page. -/
def fetch (pages : Pages) (limit : Nat) (scan : Scan) : Except Error Scan :=
  match pages scan.after with
  | .error error => .error error
  | .ok documents =>
    .ok
      { after := (documents.getLast?.map Prod.fst).getD scan.after
        buffer := scan.buffer ++ documents.map Prod.snd
        finished := scan.finished || decide (documents.length < limit) }

/-- Takes a document out of the buffer. -/
def take (scan : Scan) : Option Item × Scan :=
  match scan.buffer with
  | [] => (none, scan)
  | document :: rest => (some (.ok document), { scan with buffer := rest })

/-- The next item, if there is one. -/
def next (pages : Pages) (limit : Nat) (scan : Scan) : Option Item × Scan :=
  if scan.buffer.isEmpty && !scan.finished then
    match scan.fetch pages limit with
    | .error error => (some (.error error), { scan with finished := true })
    | .ok scan => scan.take
  else scan.take

/-- The items up to the end of the scan, or as many as are asked for. -/
def pull (pages : Pages) (limit : Nat) : (count : Nat) → Scan → List Item
  | 0, _ => []
  | count + 1, scan =>
    match scan.next pages limit with
    | (none, _) => []
    | (some item, scan) => item :: pull pages limit count scan

end Scan

end TreeAudit.Store.Paging
