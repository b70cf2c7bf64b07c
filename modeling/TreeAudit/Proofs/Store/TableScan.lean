import TreeAudit.Proofs.Store.Keyset

/-!
What a scan of a table yields. If all rows give documents, these come in the order of the ids, one
for each row that the scan meets, and the number of rows in a page does not matter (`yields_all`).
Otherwise the pages before the first row that gives none are yielded, and then the fault of this row
(`yields_upToFault`). A scan meets all rows but those whose id is missing or the empty text, which
are not after the empty text (`mem_rowsAfter_start`).
-/

set_option autoImplicit false
set_option relaxedAutoImplicit false

namespace TreeAudit.Store

open Paging Paging.Scan

/-- The row stores this document under its id. -/
def Row.Holds (row : Row) (document : Document) : Prop :=
  ∃ id data, row.id = .text id ∧ row.data = .text data ∧ decode (some ⟨id⟩) data = .ok document

/-- The id of the row is missing or the empty text. -/
def Row.isKeyless (row : Row) : Bool := row.id = .null || row.id = .text ""

theorem id_of_decode {key : DocumentId} {data : String} {document : Document}
    (h : decode (some key) data = .ok document) : document.id = key := by
  unfold decode at h
  split at h
  · cases h
  · obtain rfl := Except.ok.inj h
    rfl

namespace Table

variable {rows : List Row} {row : Row} {key : String} {limit : ℕ} {items : List Item}

/-- The row is read as this id and document. -/
abbrev Reads (row : Row) (found : String × Document) : Prop := rowDocument row = .ok found

theorem reads_iff {found : String × Document} :
    Reads row found ↔
      row.id = .text found.1 ∧ ∃ data, row.data = .text data ∧
        decode (some ⟨found.1⟩) data = .ok found.2 := by
  obtain ⟨rowid, id, data⟩ := row
  obtain ⟨name, document⟩ := found
  cases id <;> cases data <;> simp [Reads, rowDocument, Paging.rowDocument, Cell.asText]
  case text.text id data =>
    cases hdecode : decode (some ⟨id⟩) data with
    | error cause =>
      simp only [reduceCtorEq, false_iff, not_and]
      rintro rfl
      simp [hdecode]
    | ok decoded =>
      simp only [Except.ok.injEq, Prod.mk.injEq]
      refine and_congr_right ?_
      rintro rfl
      simp [hdecode]

theorem holds_iff_exists_reads {document : Document} :
    row.Holds document ↔ ∃ id, Reads row (id, document) := by
  simp only [reads_iff, Row.Holds]
  tauto

theorem exists_reads_of_holds {documents : List Document}
    (h : List.Forall₂ Row.Holds rows documents) :
    ∃ found, List.Forall₂ Reads rows found ∧ yielded found = documents.map .ok := by
  induction h with
  | nil => exact ⟨[], .nil, rfl⟩
  | cons hrow _ ih =>
    obtain ⟨id, hreads⟩ := holds_iff_exists_reads.mp hrow
    obtain ⟨found, hall, hyielded⟩ := ih
    refine ⟨_ :: found, .cons hreads hall, ?_⟩
    rw [yielded, List.map_cons, ← yielded, hyielded, List.map_cons]

theorem holds_of_reads {found : List (String × Document)} (h : List.Forall₂ Reads rows found) :
    List.Forall₂ Row.Holds rows (found.map Prod.snd) :=
  List.forall₂_map_right_iff.mpr
    (h.imp fun _ _ hreads ↦ holds_iff_exists_reads.mpr ⟨_, hreads⟩)

/-- A row that holds no document is read as a fault. -/
theorem exists_fault_of_not_holds (h : ∀ document, ¬ row.Holds document) :
    ∃ error, rowDocument row = .error error := by
  cases hread : rowDocument row with
  | error error => exact ⟨error, rfl⟩
  | ok found => exact absurd (holds_iff_exists_reads.mpr ⟨_, hread⟩) (h found.2)

/-- Rows are read up to the first that gives no document, if there is one. -/
theorem reads_or_fault (rows : List Row) :
    (∃ found, List.Forall₂ Reads rows found) ∨
      ∃ good bad rest found error, rows = good ++ bad :: rest ∧
        List.Forall₂ Reads good found ∧ rowDocument bad = .error error := by
  induction rows with
  | nil => exact .inl ⟨[], .nil⟩
  | cons row rest ih =>
    cases hrow : rowDocument row with
    | error error => exact .inr ⟨[], row, rest, [], error, rfl, .nil, hrow⟩
    | ok found =>
      rcases ih with ⟨others, hothers⟩ | ⟨good, bad, rest, others, error, rfl, hgood, hbad⟩
      · exact .inl ⟨found :: others, .cons hrow hothers⟩
      · exact .inr ⟨row :: good, bad, rest, found :: others, error, rfl, .cons hrow hgood, hbad⟩

theorem pageDocuments_of_reads {found : List (String × Document)}
    (h : List.Forall₂ Reads rows found) : pageDocuments rows = .ok found := by
  induction h with
  | nil => rfl
  | cons hrow _ ih =>
    rw [pageDocuments] at ih ⊢
    rw [List.mapM_cons, hrow, ih]
    rfl

theorem pageDocuments_of_fault {found : List (String × Document)} {rest : List Row}
    {error : Error} (h : List.Forall₂ Reads rows found) (hbad : rowDocument row = .error error) :
    pageDocuments (rows ++ row :: rest) = .error error := by
  induction h with
  | nil =>
    rw [List.nil_append, pageDocuments, List.mapM_cons, hbad]
    rfl
  | cons hrow _ ih =>
    rw [pageDocuments] at ih ⊢
    rw [List.cons_append, List.mapM_cons, hrow, ih]
    rfl

/-- The pages of a table that has the columns. -/
def rowPages (rows : List Row) (limit : ℕ) : Pages := fun after ↦
  pageDocuments (page rows after limit)

theorem pages_eq_rowPages {table : Table}
    (hcolumns : ∀ column ∈ queried, column.1 ∈ table.columns) (limit : ℕ) :
    table.pages limit = rowPages table.rows limit := by
  have hfound : (queried.find? fun column ↦ !table.columns.contains column.1) = none := by
    refine List.find?_eq_none.mpr fun column hcolumn ↦ ?_
    simpa using hcolumns column hcolumn
  funext after
  rw [pages, hfound, rowPages]

/-- Without the columns no page can be read. -/
theorem pages_eq_error {table : Table}
    (hcolumns : ¬ ∀ column ∈ queried, column.1 ∈ table.columns) (limit : ℕ) :
    ∃ error, ∀ after, table.pages limit after = .error error := by
  obtain ⟨column, hfound⟩ : ∃ column,
      (queried.find? fun column ↦ !table.columns.contains column.1) = some column := by
    rw [← Option.isSome_iff_exists, List.find?_isSome]
    simpa using hcolumns
  simp only [pages, hfound]
  exact ⟨_, fun _ ↦ rfl⟩

section Pages

variable (hkeyed : Keyed rows) (hlimit : 0 < limit)
include hkeyed hlimit

/-- After a full page a scan meets the rows that the page has left. -/
theorem yields_page {first rest : List Row}
    (hrows : inOrder (rowsAfter key rows) = first ++ rest) (hfull : first.length = limit)
    {found : List (String × Document)} (hfound : List.Forall₂ Reads first found)
    (h : ∀ id, inOrder (rowsAfter id rows) = rest →
      Yields (rowPages rows limit) limit (readingAfter id) items) :
    Yields (rowPages rows limit) limit (readingAfter key) (yielded found ++ items) := by
  have hne : first ≠ [] := List.ne_nil_of_length_pos (hfull ▸ hlimit)
  obtain ⟨front, last, rfl⟩ := List.eq_nil_or_concat' first |>.resolve_left hne
  obtain ⟨⟨id, document⟩, hlast, hread⟩ : ∃ pair, found.getLast? = some pair ∧ Reads last pair := by
    have hdrop := List.forall₂_drop front.length hfound
    rw [List.drop_left, List.forall₂_cons_left_iff] at hdrop
    obtain ⟨pair, others, hpair, hothers, hsplit⟩ := hdrop
    rw [List.forall₂_nil_left_iff] at hothers
    refine ⟨pair, ?_, hpair⟩
    rw [← List.take_append_drop front.length found, hsplit, hothers]
    exact List.getLast?_concat
  have hpage : rowPages rows limit key = .ok found := by
    rw [rowPages, page, hrows, List.take_left' hfull]
    exact pageDocuments_of_reads hfound
  rw [← List.append_cons] at hrows
  exact yields_full hpage (hfound.length_eq ▸ hfull.ge) hlast
    (h id (rowsAfter_last hkeyed hrows (reads_iff.mp hread).1))

/-- Rows that all give documents yield them in order. -/
theorem yields_all {remaining : List Row} (hrows : inOrder (rowsAfter key rows) = remaining)
    {found : List (String × Document)} (hfound : List.Forall₂ Reads remaining found) :
    Yields (rowPages rows limit) limit (readingAfter key) (yielded found) := by
  induction hsize : remaining.length using Nat.strong_induction_on
    generalizing key remaining found with
  | _ size ih =>
    by_cases hshort : remaining.length < limit
    · refine yields_last ?_ (hfound.length_eq ▸ hshort)
      rw [rowPages, page, hrows, List.take_of_length_le hshort.le]
      exact pageDocuments_of_reads hfound
    · have hlong : limit ≤ remaining.length := Nat.le_of_not_lt hshort
      rw [← List.take_append_drop limit found, yielded, List.map_append]
      refine yields_page hkeyed hlimit (hrows.trans (List.take_append_drop limit _).symm)
        (List.length_take_of_le hlong) (List.forall₂_take limit hfound) fun id hid ↦ ?_
      refine ih _ ?_ hid (List.forall₂_drop limit hfound) rfl
      rw [List.length_drop]
      omega

/-- Before a row that gives no document only full pages are yielded. -/
theorem yields_upToFault {good rest : List Row} {bad : Row}
    (hrows : inOrder (rowsAfter key rows) = good ++ bad :: rest)
    {found : List (String × Document)} (hfound : List.Forall₂ Reads good found) {error : Error}
    (hbad : rowDocument bad = .error error) :
    Yields (rowPages rows limit) limit (readingAfter key)
      (yielded (found.take (limit * (good.length / limit))) ++ [.error error]) := by
  induction hsize : good.length using Nat.strong_induction_on generalizing key good found with
  | _ size ih =>
    subst hsize
    by_cases hshort : good.length < limit
    · rw [Nat.div_eq_of_lt hshort, Nat.mul_zero, List.take_zero]
      refine yields_fault ?_
      obtain ⟨others, hothers⟩ : ∃ others, limit - good.length = others + 1 :=
        Nat.exists_eq_add_of_lt hshort |>.imp fun others h ↦ by omega
      rw [rowPages, page, hrows, List.take_append, List.take_of_length_le hshort.le, hothers,
        List.take_succ_cons]
      exact pageDocuments_of_fault hfound hbad
    · have hlong : limit ≤ good.length := Nat.le_of_not_lt hshort
      have hpages : limit * (good.length / limit) =
          limit + limit * ((good.drop limit).length / limit) := by
        rw [List.length_drop, Nat.div_eq_sub_div hlimit hlong, Nat.mul_succ, Nat.add_comm]
      have hsplit : inOrder (rowsAfter key rows) =
          good.take limit ++ (good.drop limit ++ bad :: rest) := by
        rw [hrows, ← List.append_assoc, List.take_append_drop]
      rw [hpages, List.take_add, yielded, List.map_append, List.append_assoc]
      refine yields_page hkeyed hlimit hsplit (List.length_take_of_le hlong)
        (List.forall₂_take limit hfound) fun id hid ↦ ?_
      refine ih _ ?_ hid (List.forall₂_drop limit hfound) rfl
      rw [List.length_drop]
      omega

end Pages

/-- A scan meets the rows that have a key. -/
theorem rowsAfter_start (rows : List Row) :
    rowsAfter "" rows = rows.filter fun row ↦ !row.isKeyless := by
  refine List.filter_congr fun row _ ↦ ?_
  cases hid : row.id with
  | null => simp [Cell.isAfter, Row.isKeyless, hid]
  | blob bytes => simp [Cell.isAfter, Row.isKeyless, hid]
  | text t =>
    have hempty : "" < t ↔ t ≠ "" := by
      rw [String.lt_iff_toList_lt, ne_eq, ← String.toList_eq_nil_iff]
      cases t.toList <;> simp
    simp only [Cell.isAfter, Row.isKeyless, hid, hempty, Cell.text.injEq, reduceCtorEq,
      decide_false, Bool.false_or, decide_not]

theorem length_rowsAfter_le : (inOrder (rowsAfter key rows)).length ≤ rows.length := by
  rw [(inOrder_perm _).length_eq]
  exact List.length_filter_le _ _

section Items

variable {table : Table} (batch : ℕ)

theorem items_eq_of_yields {batch : ℕ}
    (h : Yields (table.pages (Paging.limit batch)) (Paging.limit batch) .start items)
    (hlength : items.length ≤ table.rows.length + 1) : table.items batch = items :=
  h.pull_eq hlength

theorem limit_pos : 0 < Paging.limit batch := Nat.le_max_left 1 batch

variable (hcolumns : ∀ column ∈ queried, column.1 ∈ table.columns) (hkeyed : Keyed table.rows)
  {found : List (String × Document)}
include hcolumns hkeyed

theorem scan_all (hfound : List.Forall₂ Reads (inOrder (rowsAfter "" table.rows)) found) :
    Yields (table.pages (Paging.limit batch)) (Paging.limit batch) .start (table.items batch) ∧
      table.items batch = yielded found := by
  have hyields := yields_all hkeyed (limit_pos batch) rfl hfound
  rw [← pages_eq_rowPages hcolumns] at hyields
  have hitems : table.items batch = yielded found := by
    refine items_eq_of_yields hyields ?_
    rw [yielded, List.length_map, ← hfound.length_eq]
    exact length_rowsAfter_le.trans (Nat.le_succ _)
  exact ⟨hitems ▸ hyields, hitems⟩

theorem scan_upToFault {good rest : List Row} {bad : Row}
    (hrows : inOrder (rowsAfter "" table.rows) = good ++ bad :: rest)
    (hfound : List.Forall₂ Reads good found) {error : Error}
    (hbad : rowDocument bad = .error error) :
    let limit := Paging.limit batch
    Yields (table.pages limit) limit .start (table.items batch) ∧
      table.items batch =
        yielded (found.take (limit * (good.length / limit))) ++ [.error error] := by
  intro limit
  have hyields := yields_upToFault hkeyed (limit_pos batch) hrows hfound hbad
  rw [← pages_eq_rowPages hcolumns] at hyields
  have hitems : table.items batch =
      yielded (found.take (limit * (good.length / limit))) ++ [.error error] := by
    refine items_eq_of_yields hyields ?_
    have hmet : (inOrder (rowsAfter "" table.rows)).length ≤ table.rows.length :=
      length_rowsAfter_le
    rw [hrows, List.length_append] at hmet
    rw [List.length_append, yielded, List.length_map, List.length_take, ← hfound.length_eq,
      List.length_singleton]
    omega
  exact ⟨hitems ▸ hyields, hitems⟩

end Items

/-- Every row has an id of its own, a text that is not empty. -/
structure HasTextKeys (rows : List Row) : Prop where
  nodup : (rows.map Row.id).Nodup
  exists_text : ∀ row ∈ rows, ∃ id, row.id = .text id ∧ id ≠ ""

namespace HasTextKeys

theorem keyed (hkeys : HasTextKeys rows) : Keyed rows :=
  (List.pairwise_map.mp hkeys.nodup).imp fun hne heq ↦ absurd heq hne

theorem not_isKeyless (hkeys : HasTextKeys rows) (hrow : row ∈ rows) : row.isKeyless = false := by
  obtain ⟨id, hid, hne⟩ := hkeys.exists_text row hrow
  simp [Row.isKeyless, hid, hne]

theorem rowsAfter_start (hkeys : HasTextKeys rows) : rowsAfter "" rows = rows := by
  rw [Table.rowsAfter_start, List.filter_eq_self]
  exact fun row hrow ↦ by simp [hkeys.not_isKeyless hrow]

end HasTextKeys

theorem map_id_of_holds {documents : List Document} (h : List.Forall₂ Row.Holds rows documents) :
    rows.map Row.id = documents.map fun document ↦ .text document.id.text := by
  induction h with
  | nil => rfl
  | cons hrow _ ih =>
    obtain ⟨id, data, hid, -, hdecode⟩ := hrow
    rw [List.map_cons, List.map_cons, ih, hid, id_of_decode hdecode]

/-- The documents of sorted rows are sorted by the bytes of their ids. -/
theorem pairwise_bytes {ordered : List Row}
    (hsorted : ordered.Pairwise fun a b ↦ a.id.rank < b.id.rank) {documents : List Document}
    (h : List.Forall₂ Row.Holds ordered documents) :
    documents.Pairwise fun a b ↦ a.id.bytes < b.id.bytes := by
  have hranks : (ordered.map Row.id).Pairwise fun a b ↦ a.rank < b.rank :=
    List.pairwise_map.mpr hsorted
  rw [map_id_of_holds h, List.pairwise_map] at hranks
  refine hranks.imp fun {a b} hlt ↦ DocumentId.bytes_lt_iff.mpr ?_
  exact of_decide_eq_true (Cell.isAfter_iff_rank_lt.mpr hlt)

/-- A scan of a table with texts as keys, pulled until it yields nothing more, is exact. If every
row holds a document, it yields these, one for each row, in the order of the bytes of their ids. If
some row holds none, the scan yields the documents of all full pages before the first such row and
then the fault of this row. -/
theorem scan_exact {table : Table} (hcolumns : ∀ column ∈ queried, column.1 ∈ table.columns)
    (hkeys : HasTextKeys table.rows) (batch : ℕ) :
    let limit := Paging.limit batch
    let ordered := inOrder table.rows
    Yields (table.pages limit) limit .start (table.items batch) ∧ ordered.Perm table.rows ∧
      (∀ documents, List.Forall₂ Row.Holds ordered documents →
        table.items batch = documents.map .ok ∧
          documents.Pairwise fun a b ↦ a.id.bytes < b.id.bytes) ∧
      ∀ good bad rest documents, ordered = good ++ bad :: rest →
        List.Forall₂ Row.Holds good documents → (∀ document, ¬ bad.Holds document) →
          (documents.Pairwise fun a b ↦ a.id.bytes < b.id.bytes) ∧
            ∃ error, rowDocument bad = .error error ∧ table.items batch =
              (documents.take (limit * (good.length / limit))).map .ok ++ [.error error] := by
  intro limit ordered
  have hmet : inOrder (rowsAfter "" table.rows) = ordered := by rw [hkeys.rowsAfter_start]
  have hsorted : ordered.Pairwise fun a b ↦ a.id.rank < b.id.rank :=
    pairwise_inOrder_lt (List.pairwise_map.mp hkeys.nodup)
  refine ⟨?_, inOrder_perm _, ?_, ?_⟩
  · rcases reads_or_fault ordered with
      ⟨found, hfound⟩ | ⟨good, bad, rest, found, error, hrows, hfound, hbad⟩
    · exact (scan_all batch hcolumns hkeys.keyed (hmet ▸ hfound)).1
    · exact (scan_upToFault batch hcolumns hkeys.keyed (hmet.trans hrows) hfound hbad).1
  · intro documents hdocuments
    obtain ⟨found, hfound, hyielded⟩ := exists_reads_of_holds hdocuments
    refine ⟨?_, pairwise_bytes hsorted hdocuments⟩
    rw [(scan_all batch hcolumns hkeys.keyed (hmet ▸ hfound)).2, hyielded]
  · intro good bad rest documents hrows hdocuments hnot
    obtain ⟨found, hfound, hyielded⟩ := exists_reads_of_holds hdocuments
    obtain ⟨error, hbad⟩ := exists_fault_of_not_holds hnot
    rw [hrows] at hsorted
    refine ⟨pairwise_bytes (List.pairwise_append.mp hsorted).1 hdocuments, error, hbad, ?_⟩
    rw [(scan_upToFault batch hcolumns hkeys.keyed (hmet.trans hrows) hfound hbad).2, List.map_take,
      ← hyielded, yielded, List.map_take, yielded]

/-- Four rows, of which the last in order holds no document. -/
def brokenRow : Table where
  name := nodes
  hasRowids := true
  columns := ["id", "data"]
  rows := [⟨1, .text "1:/b", .text "\x7b\x7d"⟩, ⟨2, .text "2:/a/x", .text "gone"⟩,
    ⟨3, .text "0:/", .text "\x7b\x7d"⟩, ⟨4, .text "1:/a", .text "\x7b\x7d"⟩]

theorem scan_exact_brokenRow :
    (∀ column ∈ queried, column.1 ∈ brokenRow.columns) ∧ HasTextKeys brokenRow.rows ∧
      ∃ error, brokenRow.items 2 =
        [.ok ⟨⟨"0:/"⟩, none, .node, false⟩, .ok ⟨⟨"1:/a"⟩, some ⟨"0:/"⟩, .node, false⟩,
          .error error] := by
  have hcolumns : ∀ column ∈ queried, column.1 ∈ brokenRow.columns := by decide
  have hkeys : HasTextKeys brokenRow.rows :=
    ⟨by decide, by simp only [brokenRow, List.forall_mem_cons, Cell.text.injEq]; simp⟩
  have hordered : inOrder brokenRow.rows =
      [⟨3, .text "0:/", .text "\x7b\x7d"⟩, ⟨4, .text "1:/a", .text "\x7b\x7d"⟩,
        ⟨1, .text "1:/b", .text "\x7b\x7d"⟩] ++ ⟨2, .text "2:/a/x", .text "gone"⟩ :: [] :=
    inOrder_eq_of_perm (by decide) (by decide) (by decide)
  have hgood : List.Forall₂ Row.Holds
      [⟨3, .text "0:/", .text "\x7b\x7d"⟩, ⟨4, .text "1:/a", .text "\x7b\x7d"⟩,
        ⟨1, .text "1:/b", .text "\x7b\x7d"⟩]
      [⟨⟨"0:/"⟩, none, .node, false⟩, ⟨⟨"1:/a"⟩, some ⟨"0:/"⟩, .node, false⟩,
        ⟨⟨"1:/b"⟩, some ⟨"0:/"⟩, .node, false⟩] :=
    .cons ⟨_, _, rfl, rfl, by decide +kernel⟩ (.cons ⟨_, _, rfl, rfl, by decide +kernel⟩
      (.cons ⟨_, _, rfl, rfl, by decide +kernel⟩ .nil))
  have hbad (document : Document) :
      ¬ Row.Holds ⟨2, .text "2:/a/x", .text "gone"⟩ document := by
    rintro ⟨id, data, hid, hdata, hdecode⟩
    obtain rfl := Cell.text.inj hdata
    have hfault : (Payload.ofText "gone".toList).isOk = false := by decide +kernel
    rw [decode] at hdecode
    cases hread : Payload.ofText "gone".toList with
    | error cause =>
      rw [hread] at hdecode
      cases hdecode
    | ok payload =>
      rw [hread] at hfault
      cases hfault
  obtain ⟨-, -, -, hscan⟩ := scan_exact hcolumns hkeys 2
  obtain ⟨-, error, -, hitems⟩ := hscan _ _ _ _ hordered hgood hbad
  exact ⟨hcolumns, hkeys, error, hitems⟩

/-- No row that has a key is passed over. A scan yields an error, or the documents of just these
rows. -/
theorem scan_accounts {table : Table} (hkeyed : Keyed table.rows) (batch : ℕ) :
    let limit := Paging.limit batch
    let met := inOrder (table.rows.filter fun row ↦ !row.isKeyless)
    Yields (table.pages limit) limit .start (table.items batch) ∧
      ((∃ error, .error error ∈ table.items batch) ∨
        ∃ documents, List.Forall₂ Row.Holds met documents ∧
          table.items batch = documents.map .ok ∧
          documents.length + table.rows.countP Row.isKeyless = table.rows.length) := by
  intro limit met
  have hmet : inOrder (rowsAfter "" table.rows) = met := by rw [rowsAfter_start]
  by_cases hcolumns : ∀ column ∈ queried, column.1 ∈ table.columns
  · rcases reads_or_fault met with
      ⟨found, hfound⟩ | ⟨good, bad, rest, found, error, hrows, hfound, hbad⟩
    · obtain ⟨hyields, hitems⟩ := scan_all batch hcolumns hkeyed (hmet ▸ hfound)
      refine ⟨hyields, .inr ⟨found.map Prod.snd, holds_of_reads hfound, ?_, ?_⟩⟩
      · rw [hitems, yielded, List.map_map]
        rfl
      · rw [List.length_map, ← hfound.length_eq, (inOrder_perm _).length_eq,
          ← List.countP_eq_length_filter, Nat.add_comm,
          List.length_eq_countP_add_countP Row.isKeyless]
        simp
    · obtain ⟨hyields, hitems⟩ :=
        scan_upToFault batch hcolumns hkeyed (hmet.trans hrows) hfound hbad
      refine ⟨hyields, .inl ⟨error, ?_⟩⟩
      rw [hitems]
      simp
  · obtain ⟨error, hpages⟩ := pages_eq_error hcolumns limit
    have hyields : Yields (table.pages limit) limit .start [.error error] :=
      yields_fault (hpages "")
    have hitems := items_eq_of_yields hyields (by simp)
    rw [hitems]
    exact ⟨hyields, .inl ⟨error, List.mem_singleton_self _⟩⟩

/-- A row without an id, one with an empty id and one with an id. -/
def keylessRows : Table where
  name := nodes
  hasRowids := true
  columns := ["id", "data"]
  rows := [⟨1, .null, .text "\x7b\x7d"⟩, ⟨2, .text "", .text "\x7b\x7d"⟩,
    ⟨3, .text "0:/", .text "\x7b\x7d"⟩]

theorem scan_accounts_keylessRows :
    Keyed keylessRows.rows ∧ ∃ documents : List Document,
      keylessRows.items 2 = documents.map .ok ∧ documents.length = 1 := by
  have hkeyed : Keyed keylessRows.rows := by
    simp [Keyed, keylessRows]
  have hitems : keylessRows.items 2 = [.ok ⟨⟨"0:/"⟩, none, .node, false⟩] := by decide +kernel
  obtain ⟨-, ⟨error, herror⟩ | ⟨documents, -, hdocuments, haccount⟩⟩ := scan_accounts hkeyed 2
  · rw [hitems] at herror
    simp at herror
  · refine ⟨hkeyed, documents, hdocuments, ?_⟩
    simpa [keylessRows, Row.isKeyless] using haccount

/-- One row, with an empty id. -/
def emptyIdRow : Table where
  name := nodes
  hasRowids := true
  columns := ["id", "data"]
  rows := [⟨1, .text "", .text "\x7b\x7d"⟩]

/-- A scan that passes over the only row, which holds a document, and says nothing of it. -/
theorem items_emptyIdRow :
    Keyed emptyIdRow.rows ∧ (∀ column ∈ queried, column.1 ∈ emptyIdRow.columns) ∧
      (∀ row ∈ emptyIdRow.rows, row.Holds ⟨⟨""⟩, none, .node, false⟩) ∧
      emptyIdRow.rows.length = 1 ∧ emptyIdRow.items 1000 = [] := by
  refine ⟨by simp [Keyed, emptyIdRow], by decide, fun row hrow ↦ ?_, rfl, by decide +kernel⟩
  obtain rfl := List.mem_singleton.mp hrow
  exact ⟨_, _, rfl, rfl, by decide +kernel⟩

end Table

end TreeAudit.Store
