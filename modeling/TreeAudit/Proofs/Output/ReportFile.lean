import TreeAudit.Proofs.Output.Delivery

/-!
What a report file holds. A file is made with the opening of its form, every entry adds its line to
what is held back, and closing writes that out, if there is room. So a file that could be closed
holds its opening and then the lines of the entries, in order (`saved_iff`).
-/

set_option autoImplicit false
set_option relaxedAutoImplicit false

namespace TreeAudit.Output.ReportFile

open Report

/-- A file made in this form was given the entries, could be closed, and holds this text then. -/
def Saved (format : Format) (entries : List Entry) (text : String) : Prop :=
  ∃ hasRoom,
    (sink.close (sink.given entries (.create format hasRoom))).2 = true ∧
      (sink.served entries (.create format hasRoom)).held = text

theorem given_eq (entries : List Entry) (file : ReportFile) :
    sink.given entries file =
      { file with
        held := file.held ++ String.join (entries.map fun entry ↦ file.format.line entry) } := by
  induction entries generalizing file with
  | nil => simp [Sink.given]
  | cons entry rest ih =>
    show sink.given rest (sink.write entry file).1 = _
    rw [ih]
    simp [sink, String.append_assoc]

theorem held_served (entries : List Entry) (format : Format) (hasRoom : Bool) :
    (sink.served entries (.create format hasRoom)).held.toList =
      format.opening.toList ++ entries.flatMap fun entry ↦ (format.line entry).toList := by
  have hheld : (sink.served entries (.create format hasRoom)).held =
      format.opening ++ String.join (entries.map fun entry ↦ format.line entry) := by
    show (sink.given entries (.create format hasRoom)).held = _
    rw [given_eq]
    rfl
  rw [hheld, String.toList_append, String.toList_join, List.flatMap_map]

theorem saved_iff {format : Format} {entries : List Entry} {text : String} :
    Saved format entries text ↔
      text.toList =
        format.opening.toList ++ entries.flatMap fun entry ↦ (format.line entry).toList := by
  constructor
  · rintro ⟨hasRoom, -, rfl⟩
    exact held_served entries format hasRoom
  · intro htext
    have hclose : (sink.close (sink.given entries (.create format true))).2 = true := by
      rw [given_eq]
      rfl
    refine ⟨true, hclose, String.toList_injective ?_⟩
    rw [held_served, htext]

/-- A form without an opening, in which each entry is a text with a line feed behind it. -/
theorem toList_of_saved {format : Format} {shown : Entry → String} (hopening : format.opening = "")
    (hline : ∀ entry, format.line entry = shown entry ++ "\n") {entries : List Entry}
    {text : String} (h : Saved format entries text) :
    text.toList = (entries.map fun entry ↦ (shown entry).toList).flatMap (· ++ ['\n']) := by
  have hnone : format.opening.toList = [] := congrArg String.toList hopening
  rw [saved_iff.mp h, hnone, List.nil_append, List.flatMap_map]
  refine List.flatMap_congr fun entry _ ↦ ?_
  rw [hline, String.toList_append]
  rfl

/-- There is a file for any entries in any form. -/
theorem exists_saved (format : Format) (entries : List Entry) :
    ∃ text, Saved format entries text :=
  ⟨_, saved_iff.mpr String.toList_ofList⟩

end TreeAudit.Output.ReportFile
