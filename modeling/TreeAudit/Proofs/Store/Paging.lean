import TreeAudit.Store.Paging
import Mathlib.Data.List.Basic

/-!
What a scan by pages yields until it has nothing more to yield (`Scan.Yields`). That depends only
on the pages it reads: a page that cannot be read yields its error and nothing else, one that is
not full its documents, and one that is full its documents and then what a scan yields that starts
after the last of them (`yields_fault`, `yields_last`, `yields_full`).
-/

set_option autoImplicit false
set_option relaxedAutoImplicit false

namespace TreeAudit.Store.Paging

/-- What documents that have been read yield. -/
def yielded (documents : List (String × Document)) : List Item :=
  documents.map fun pair ↦ .ok pair.2

/-- A scan that is to read on after an id. -/
def Scan.readingAfter (after : String) : Scan := ⟨after, [], false⟩

namespace Scan

variable {pages : Pages} {limit : ℕ} {scan : Scan} {items : List Item}

/-- The scan yields these items one by one, and then nothing. -/
inductive Yields (pages : Pages) (limit : ℕ) : Scan → List Item → Prop where
  | nothing {scan ended : Scan} (h : scan.next pages limit = (none, ended)) :
    Yields pages limit scan []
  | item {scan rest : Scan} {item : Item} {items : List Item}
    (h : scan.next pages limit = (some item, rest)) (hrest : Yields pages limit rest items) :
    Yields pages limit scan (item :: items)

/-- As many pulls as a scan has items give them all, and more pulls give no more. -/
theorem Yields.pull_eq (h : Yields pages limit scan items) {count : ℕ}
    (hcount : items.length ≤ count) : scan.pull pages limit count = items := by
  induction h generalizing count with
  | nothing hnext =>
    cases count with
    | zero => rfl
    | succ count => rw [pull, hnext]
  | item hnext _ ih =>
    cases count with
    | zero => exact absurd hcount (by simp)
    | succ count =>
      rw [pull, hnext]
      dsimp only
      rw [ih (Nat.le_of_succ_le_succ hcount)]

/-- What a scan yields depends on its next step only. -/
theorem Yields.of_next_eq {other : Scan} (hsame : scan.next pages limit = other.next pages limit)
    (h : Yields pages limit other items) : Yields pages limit scan items := by
  cases h with
  | nothing hnext => exact .nothing (hsame.trans hnext)
  | item hnext hrest => exact .item (hsame.trans hnext) hrest

/-- Documents in the buffer are taken first. -/
theorem yields_buffer {after : String} {finished : Bool}
    (h : Yields pages limit ⟨after, [], finished⟩ items) (buffer : List Document) :
    Yields pages limit ⟨after, buffer, finished⟩ (buffer.map .ok ++ items) := by
  induction buffer with
  | nil => exact h
  | cons document rest ih => exact .item rfl ih

theorem yields_finished {after : String} : Yields pages limit ⟨after, [], true⟩ [] :=
  .nothing rfl

/-- A page that cannot be read is the end. -/
theorem yields_fault {after : String} {error : Error} (hpage : pages after = .error error) :
    Yields pages limit (readingAfter after) [.error error] := by
  have hnext : (readingAfter after).next pages limit =
      (some (.error error), ⟨after, [], true⟩) := by
    simp [readingAfter, next, fetch, hpage]
  exact .item hnext yields_finished

/-- Where a page is read, the scan goes on with the documents of the page. -/
theorem next_readingAfter {after : String} {documents : List (String × Document)}
    (hpage : pages after = .ok documents) :
    (readingAfter after).next pages limit =
      take ⟨(documents.getLast?.map Prod.fst).getD after, documents.map Prod.snd,
        decide (documents.length < limit)⟩ := by
  simp [readingAfter, next, fetch, hpage]

/-- A page that is not full is the last. -/
theorem yields_last {after : String} {documents : List (String × Document)}
    (hpage : pages after = .ok documents) (hshort : documents.length < limit) :
    Yields pages limit (readingAfter after) (yielded documents) := by
  set read : Scan := ⟨(documents.getLast?.map Prod.fst).getD after, documents.map Prod.snd, true⟩
    with hread
  have hnext : (readingAfter after).next pages limit = read.next pages limit := by
    rw [next_readingAfter hpage, decide_eq_true hshort]
    simp [hread, next]
  have hyields : Yields pages limit read ((documents.map Prod.snd).map .ok ++ []) :=
    yields_buffer yields_finished _
  rw [List.append_nil, List.map_map] at hyields
  exact hyields.of_next_eq hnext

/-- After a full page the scan reads on after the last id of it. -/
theorem yields_full {after : String} {documents : List (String × Document)}
    {last : String × Document} (hpage : pages after = .ok documents)
    (hfull : limit ≤ documents.length) (hlast : documents.getLast? = some last)
    (h : Yields pages limit (readingAfter last.1) items) :
    Yields pages limit (readingAfter after) (yielded documents ++ items) := by
  set read : Scan := ⟨last.1, documents.map Prod.snd, false⟩ with hread
  have hne : documents ≠ [] := by
    rintro rfl
    simp at hlast
  have hnext : (readingAfter after).next pages limit = read.next pages limit := by
    rw [next_readingAfter hpage, decide_eq_false (Nat.not_lt.mpr hfull), hlast]
    simp [hread, next, hne]
  have hyields := yields_buffer h (documents.map Prod.snd)
  rw [List.map_map] at hyields
  exact hyields.of_next_eq hnext

end Scan

end TreeAudit.Store.Paging
