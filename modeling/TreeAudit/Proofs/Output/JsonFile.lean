import TreeAudit.Proofs.Output.ReportFile
import TreeAudit.Proofs.Report.JsonObject

/-!
Report files of JSON lines. Every statement of a report adds the text of its object and a line feed.
There is no line break within an object, so the file is cut into these texts, and each is read as
all that its statement says (`exists_lines_of_saved`). Two lists of statements with the same file
are therefore the same (`saved_jsonLines`).
-/

set_option autoImplicit false
set_option relaxedAutoImplicit false

namespace TreeAudit.Output.ReportFile

open Report Text TreeAudit.Json

/-- The line is free of control characters and reads as all that the statement says. -/
structure IsLineOf (statement : Statement) (line : List Char) : Prop where
  not_control : ∀ c ∈ line, NotControl c
  read : unplaced (Value.read Value.nestingLimit (.ofText line)) = some (statement.object, [])

theorem isLineOf_json (statement : Statement) :
    IsLineOf statement statement.entry.json.toList :=
  ⟨statement.tells_json.not_control, statement.tells_json.read (by decide)⟩

/-- No line is that of two statements. -/
theorem IsLineOf.statement_unique {statement statement' : Statement} {line : List Char}
    (h : IsLineOf statement line) (h' : IsLineOf statement' line) : statement = statement' := by
  have hobject := h.read.symm.trans h'.read
  exact Statement.object_injective (Prod.mk.inj (Option.some.inj hobject)).1

theorem exists_lines_of_saved {statements : List Statement} {text : String}
    (h : Saved .jsonLines (statements.map Statement.entry) text) :
    ∃ lines, Split.pieces '\n' text.toList = lines ++ [[]] ∧
      List.Forall₂ IsLineOf statements lines := by
  refine ⟨statements.map fun statement ↦ statement.entry.json.toList, ?_, ?_⟩
  · have htext : text.toList =
        (statements.map fun statement ↦ statement.entry.json.toList).flatMap (· ++ ['\n']) := by
      rw [toList_of_saved rfl (fun _ ↦ rfl) h, List.map_map]
      rfl
    rw [htext]
    refine Split.pieces_flatMap_append fun line hline hfeed ↦ ?_
    obtain ⟨statement, -, rfl⟩ := List.mem_map.mp hline
    have hcontrol := (isLineOf_json statement).not_control '\n' hfeed
    exact absurd hcontrol (by decide)
  · rw [List.forall₂_map_right_iff]
    exact List.forall₂_same.mpr fun statement _ ↦ isLineOf_json statement

/-- A file of JSON lines that could be closed has one line for each statement, in order, which holds
no line break and is read back as an object of all the statement says. Other statements do not make
the same file. -/
theorem saved_jsonLines {statements : List Statement} {text : String}
    (h : Saved .jsonLines (statements.map Statement.entry) text) :
    (∃ lines, Split.pieces '\n' text.toList = lines ++ [[]] ∧
        List.Forall₂ IsLineOf statements lines) ∧
      ∀ others : List Statement, Saved .jsonLines (others.map Statement.entry) text →
        others = statements := by
  have hlines := exists_lines_of_saved h
  refine ⟨hlines, fun others hothers ↦ ?_⟩
  obtain ⟨lines, hpieces, hstatements⟩ := hlines
  obtain ⟨lines', hpieces', hothers⟩ := exists_lines_of_saved hothers
  obtain rfl : lines = lines' := List.append_cancel_right (hpieces.symm.trans hpieces')
  have hunique : Relator.LeftUnique IsLineOf :=
    fun _ _ _ h h' ↦ h.statement_unique h'
  exact List.left_unique_forall₂' hunique hothers hstatements

theorem saved_jsonLines_lineBreaks :
    ∃ text, Saved .jsonLines
        ([Statement.finding ⟨"orphan", .corruption, some ⟨"1:/\"a\\\n"⟩, none, "\x00,\r\n"⟩,
          Statement.status "done\n"].map Statement.entry) text ∧
      (Split.pieces '\n' text.toList).length = 3 := by
  obtain ⟨text, hsaved⟩ := exists_saved .jsonLines
    ([Statement.finding ⟨"orphan", .corruption, some ⟨"1:/\"a\\\n"⟩, none, "\x00,\r\n"⟩,
      Statement.status "done\n"].map Statement.entry)
  obtain ⟨⟨lines, hpieces, hlines⟩, -⟩ := saved_jsonLines hsaved
  refine ⟨text, hsaved, ?_⟩
  rw [hpieces, List.length_append, ← hlines.length_eq]
  rfl

end TreeAudit.Output.ReportFile
