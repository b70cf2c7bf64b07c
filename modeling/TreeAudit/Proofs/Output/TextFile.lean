import TreeAudit.Proofs.Output.ReportFile
import TreeAudit.Proofs.Report.LineFeeds

/-!
Report files in readable text. Every entry adds its text and a line feed, whatever the text holds,
so the line feeds in a file are one for each entry and those in the strings that entries show
(`lineFeeds_of_saved`). The lines of a file are the texts of its entries if and only if none of
these strings holds a line feed (`saved_text_lines`). An id that does can make one finding look like
two (`saved_text_forged`).
-/

set_option autoImplicit false
set_option relaxedAutoImplicit false

namespace TreeAudit.Output.ReportFile

open Report Text

variable {entries : List Entry} {text : String}

/-- The texts of the entries, each with a line feed behind it. -/
theorem toList_of_saved_text (h : Saved .text entries text) :
    text.toList = (entries.map fun entry ↦ entry.text.toList).flatMap (· ++ ['\n']) :=
  toList_of_saved rfl (fun _ ↦ rfl) h

theorem lineFeeds_of_saved (h : Saved .text entries text) :
    lineFeeds text = entries.length + ((entries.flatMap Entry.shown).map lineFeeds).sum := by
  rw [lineFeeds, toList_of_saved_text h]
  clear h
  induction entries with
  | nil => rfl
  | cons entry rest ih =>
    have hentry : entry.text.toList.count '\n' = (entry.shown.map lineFeeds).sum :=
      entry.lineFeeds_text
    rw [List.map_cons, List.flatMap_cons, List.count_append, ih, List.count_append, hentry,
      List.flatMap_cons, List.map_append, List.sum_append, List.count_singleton_self,
      List.length_cons]
    omega

/-- A file in readable text that could be closed holds the texts of its entries, each followed by a
line feed. It has one line for each entry, the text of this entry, exactly as long as no string that
an entry shows holds a line feed; each one that it holds adds a line. -/
theorem saved_text_lines (h : Saved .text entries text) :
    text.toList = (entries.map fun entry ↦ entry.text.toList).flatMap (· ++ ['\n']) ∧
      lineFeeds text = entries.length + ((entries.flatMap Entry.shown).map lineFeeds).sum ∧
      (Split.pieces '\n' text.toList = (entries.map fun entry ↦ entry.text.toList) ++ [[]] ↔
        ∀ entry ∈ entries, ∀ shown ∈ entry.shown, '\n' ∉ shown.toList) := by
  have htext := toList_of_saved_text h
  have hfeeds := lineFeeds_of_saved h
  refine ⟨htext, hfeeds, ?_, ?_⟩
  · intro hlines
    -- as many lines as entries leave no line feed to the strings that are shown
    have hcount : lineFeeds text = entries.length := by
      have hlength := congrArg List.length hlines
      rw [Split.length_pieces, List.length_append, List.length_map] at hlength
      exact Nat.succ.inj hlength
    have hsum : ((entries.flatMap Entry.shown).map lineFeeds).sum = 0 := by omega
    intro entry hentry shown hshown
    have hzero : lineFeeds shown = 0 :=
      List.sum_eq_zero_iff_forall_eq_nat.mp hsum _
        (List.mem_map_of_mem (List.mem_flatMap.mpr ⟨entry, hentry, hshown⟩))
    exact List.count_eq_zero.mp hzero
  · intro hnone
    rw [htext]
    refine Split.pieces_flatMap_append fun line hline ↦ ?_
    obtain ⟨entry, hentry, rfl⟩ := List.mem_map.mp hline
    have hzero : lineFeeds entry.text = 0 := by
      rw [entry.lineFeeds_text, List.sum_eq_zero_iff_forall_eq_nat]
      intro count hcount
      obtain ⟨shown, hshown, rfl⟩ := List.mem_map.mp hcount
      exact List.count_eq_zero.mpr (hnone entry hentry shown hshown)
    exact List.count_eq_zero.mp hzero

/-- A finding about the document with this id and the parent `1:/gone`. -/
def strayFinding (id : String) : Finding :=
  ⟨"orphan", .corruption, some ⟨id⟩, some ⟨"1:/gone"⟩, "orphaned node: missing parent 1:/gone"⟩

/-- An id that ends the line of one finding and begins that of another. -/
def forgingId : String :=
  "1:/a" ++ (": " ++ "orphaned node: missing parent 1:/gone") ++ "\n" ++
    ("[corruption] orphan" ++ " " ++ "1:/b")

theorem text_strayFinding (id : String) :
    (strayFinding id).text = "[corruption] orphan" ++ (" " ++ id) ++
      (": " ++ "orphaned node: missing parent 1:/gone") := by
  simp [strayFinding, Finding.text, Severity.label, String.append_assoc]

theorem lineFeeds_strayFinding (id : String) :
    lineFeeds (strayFinding id).text = lineFeeds id := by
  have hcheck : lineFeeds "orphan" = 0 := by decide
  have hdescription : lineFeeds "orphaned node: missing parent 1:/gone" = 0 := by decide
  rw [Finding.lineFeeds_text]
  simp [strayFinding, Entry.shown, hcheck, hdescription]

theorem saved_text_lines_forgingId :
    ∃ text, Saved .text [.status "check", .finding (strayFinding forgingId)] text ∧
      lineFeeds text = 3 := by
  have hsaved : Saved .text [.status "check", .finding (strayFinding forgingId)]
      ("check\n" ++ ((strayFinding forgingId).text ++ "\n")) := by
    rw [saved_iff]
    simp [Format.opening, Format.line, Entry.text]
  obtain ⟨-, hfeeds, -⟩ := saved_text_lines hsaved
  exact ⟨_, hsaved, hfeeds.trans (by decide)⟩

/-- One finding whose file is that of two findings: its lines are not the texts of its entries. -/
theorem saved_text_forged :
    ∃ text, Saved .text [.finding (strayFinding forgingId)] text ∧
      Split.pieces '\n' text.toList ≠ [(strayFinding forgingId).text.toList] ++ [[]] ∧
      Saved .text [.finding (strayFinding "1:/a"), .finding (strayFinding "1:/b")] text := by
  refine ⟨(strayFinding forgingId).text ++ "\n", ?_, fun hlines ↦ ?_, ?_⟩
  · rw [saved_iff]
    simp [Format.opening, Format.line, Entry.text]
  · have hfeeds : lineFeeds ((strayFinding forgingId).text ++ "\n") = 2 := by
      rw [lineFeeds_append, lineFeeds_strayFinding]
      decide
    have hlength := congrArg List.length hlines
    rw [Split.length_pieces, ← lineFeeds, hfeeds] at hlength
    exact absurd hlength (by simp)
  · rw [saved_iff]
    simp only [text_strayFinding, forgingId, Format.opening, Format.line, Entry.text,
      List.flatMap_cons, List.flatMap_nil, String.toList_append, List.append_assoc]
    rfl

end TreeAudit.Output.ReportFile
