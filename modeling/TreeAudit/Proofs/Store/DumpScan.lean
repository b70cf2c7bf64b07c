import TreeAudit.Proofs.Text.ByteLines
import TreeAudit.Store.Dump
import Mathlib.Data.List.Forall2
import Mathlib.Data.List.ReduceOption

/-!
The scan of a dump goes line by line. What a line yields hangs on its bytes and on its number alone
(`LineYields`): nothing if it is blank, else its document, or an error that does not keep the scan
from the lines behind it (`itemsFrom_eq_reduceOption`). The lines before a line and those behind it
are scanned on their own (`items_line`), so whatever bytes take the place of the line, they yield
what they yielded before (`scan_lineByLine`).
-/

set_option autoImplicit false
set_option relaxedAutoImplicit false

namespace TreeAudit.Store.Dump

open Text.Blank (isBlank isSpace)
open Text.Lines (lineFeed dropReturn physical)

/-- What a line with the given number yields. -/
inductive LineYields (number : ℕ) (line : List UInt8) : Option Item → Prop
  | notText (h : ∀ text : String, text.toUTF8.toList ≠ line) :
      LineYields number line (some (.error (.file .invalidText)))
  | blank (text : String) (htext : text.toUTF8.toList = line)
      (hblank : ∀ c ∈ text.toList, isSpace c = true) : LineYields number line none
  | document (text : String) (htext : text.toUTF8.toList = line)
      (hfilled : ∃ c ∈ text.toList, isSpace c = false) (document : Document)
      (h : decode none text = .ok document) : LineYields number line (some (.ok document))
  | fault (text : String) (htext : text.toUTF8.toList = line)
      (hfilled : ∃ c ∈ text.toList, isSpace c = false) (cause : PayloadError)
      (h : decode none text = .error cause) :
      LineYields number line (some (.error (.protocol (.line number cause))))

theorem not_isBlank {text : String} (h : ∃ c ∈ text.toList, isSpace c = false) :
    ¬ isBlank text.toList = true := by
  obtain ⟨c, hmem, hc⟩ := h
  intro hblank
  rw [List.all_eq_true.mp hblank c hmem] at hc
  cases hc

theorem lineYields_item? (number : ℕ) (line : List UInt8) :
    LineYields number line (item? number line) := by
  rw [item?]
  cases htext : Text.Lines.decode? line with
  | none => exact .notText (Text.Lines.decode?_eq_none_iff.mp htext)
  | some text =>
    have hline := Text.Lines.decode?_eq_some_iff.mp htext
    dsimp only
    split_ifs with hblank
    · exact .blank text hline (List.all_eq_true.mp hblank)
    · have hfilled : ∃ c ∈ text.toList, isSpace c = false := by
        simpa [isBlank] using hblank
      cases hdecode : decode none text with
      | ok document => exact .document text hline hfilled document hdecode
      | error cause => exact .fault text hline hfilled cause hdecode

theorem lineYields_iff {number : ℕ} {line : List UInt8} {item : Option Item} :
    LineYields number line item ↔ item? number line = item := by
  constructor
  · intro h
    have hdecode (text : String) (htext : text.toUTF8.toList = line) :
        Text.Lines.decode? line = some text := Text.Lines.decode?_eq_some_iff.mpr htext
    rw [item?]
    cases h with
    | notText h => rw [Text.Lines.decode?_eq_none_iff.mpr h]
    | blank text htext hblank =>
      rw [hdecode text htext]
      exact if_pos (List.all_eq_true.mpr hblank)
    | document text htext hfilled document h =>
      rw [hdecode text htext]
      dsimp only
      rw [if_neg (not_isBlank hfilled), h]
    | fault text htext hfilled cause h =>
      rw [hdecode text htext]
      dsimp only
      rw [if_neg (not_isBlank hfilled), h]
  · rintro rfl
    exact lineYields_item? number line

theorem itemsFrom_cons (number : ℕ) (line : List UInt8) (rest : List (List UInt8)) :
    itemsFrom number (line :: rest) =
      (item? number line).toList ++ itemsFrom (number + 1) rest := by
  rw [itemsFrom]
  cases item? number line <;> rfl

/-- The items of the lines, in their order. -/
theorem itemsFrom_eq_reduceOption (number : ℕ) (lines : List (List UInt8)) :
    itemsFrom number lines =
      ((lines.zipIdx number).map fun numbered ↦ item? numbered.2 numbered.1).reduceOption := by
  induction lines generalizing number with
  | nil => rfl
  | cons line rest ih =>
    rw [itemsFrom_cons, List.zipIdx_cons, List.map_cons, ih]
    cases item? number line <;> rfl

theorem itemsFrom_append (number : ℕ) (first second : List (List UInt8)) :
    itemsFrom number (first ++ second) =
      itemsFrom number first ++ itemsFrom (number + first.length) second := by
  rw [itemsFrom_eq_reduceOption, itemsFrom_eq_reduceOption, itemsFrom_eq_reduceOption,
    List.zipIdx_append, List.map_append, List.reduceOption_append]

/-! ### One line among others -/

/-- The bytes in the middle are a line: none of them is a line feed, and on either side there is
one, or nothing. -/
structure IsLine (front line back : List UInt8) : Prop where
  front : front = [] ∨ front.getLast? = some lineFeed
  line : lineFeed ∉ line
  back : back = [] ∨ back.head? = some lineFeed

/-- A line as it is read: if a line feed ends it, without a carriage return in front of that. -/
def shown (line back : List UInt8) : List UInt8 :=
  if back = [] then line else dropReturn line

theorem item?_nil (number : ℕ) : item? number [] = none := by
  have hempty : Text.Lines.decode? [] = some (String.ofList []) := by
    have hencode := Text.Lines.decode?_encode []
    rwa [Text.Utf8.encode_eq_flatMap] at hencode
  rw [item?, hempty]
  rfl

theorem items_line {front line back : List UInt8} (h : IsLine front line back) :
    items (front ++ line ++ back) =
      items front ++ (item? ((physical front).length + 1) (shown line back)).toList ++
        itemsFrom ((physical front).length + 2) (Text.Lines.lines back.tail) := by
  have hrest : itemsFrom ((physical front).length + 1) (Text.Lines.lines (line ++ back)) =
      (item? ((physical front).length + 1) (shown line back)).toList ++
        itemsFrom ((physical front).length + 2) (Text.Lines.lines back.tail) := by
    rcases h.back with rfl | hback
    · rw [List.append_nil, Text.Lines.lines, Text.Lines.linesFrom_of_notMem h.line, shown,
        if_pos rfl, List.append_nil, List.isEmpty_reverse, List.reverse_reverse]
      by_cases hline : line = []
      · subst hline
        rw [item?_nil]
        rfl
      · rw [if_neg (by simpa using hline), itemsFrom_cons]
        rfl
    · obtain ⟨rest, rfl⟩ := List.head?_eq_some_iff.mp hback
      rw [Text.Lines.lines, Text.Lines.linesFrom_append h.line, List.append_nil,
        Text.Lines.closed_reverse, shown, if_neg (List.cons_ne_nil _ _), List.tail_cons,
        itemsFrom_cons]
  rw [items, List.append_assoc, Text.Lines.lines_append h.front, itemsFrom_append,
    Text.Lines.lines_eq_physical front, Nat.add_comm 1, hrest, List.append_assoc, items,
    Text.Lines.lines_eq_physical front]

/-- A dump is scanned line by line. Each line yields what its bytes and its number tell, and the
scan goes on behind an error; an error in what a line holds is told with the number of the line. If
other bytes take the place of a line, the lines before it and those behind it yield what they
yielded. -/
theorem scan_lineByLine (bytes : List UInt8) :
    (∃ yielded : List (Option Item),
        List.Forall₂ (fun numbered item ↦ LineYields numbered.2 numbered.1 item)
          ((physical bytes).zipIdx 1) yielded ∧
        (store (.ok bytes)).scan = .ok yielded.reduceOption) ∧
      (∀ number cause, (Error.protocol (.line number cause)).message =
        "protocol error: " ++ ("line " ++ toString number ++ ": " ++ cause.message)) ∧
      ∀ front line other back, bytes = front ++ line ++ back → IsLine front line back →
        lineFeed ∉ other →
          ∃ before own others after,
            (store (.ok front)).scan = .ok before ∧
            LineYields ((physical front).length + 1) (shown line back) own ∧
            LineYields ((physical front).length + 1) (shown other back) others ∧
            (store (.ok bytes)).scan = .ok (before ++ own.toList ++ after) ∧
            (store (.ok (front ++ other ++ back))).scan =
              .ok (before ++ others.toList ++ after) := by
  refine ⟨?_, fun number cause ↦ rfl, ?_⟩
  · refine ⟨((physical bytes).zipIdx 1).map fun numbered ↦ item? numbered.2 numbered.1, ?_,
      congrArg Except.ok ?_⟩
    · rw [List.forall₂_map_right_iff, List.forall₂_same]
      intro numbered _
      exact lineYields_item? numbered.2 numbered.1
    · rw [items, Text.Lines.lines_eq_physical, itemsFrom_eq_reduceOption]
  · rintro front line other back rfl hline hother
    have hreplaced : IsLine front other back := ⟨hline.front, hother, hline.back⟩
    exact ⟨_, _, _, _, rfl, lineYields_item? _ _, lineYields_item? _ _,
      congrArg Except.ok (items_line hline), congrArg Except.ok (items_line hreplaced)⟩

/-- An opening bracket, and a blank line with a carriage return at its end. -/
def beforeStray : List UInt8 := [123, 10, 32, 13, 10]

/-- No text. -/
def stray : List UInt8 := [255]

/-- A closing bracket in a line that is not ended. -/
def behindStray : List UInt8 := [10, 125]

/-- The line that is no text yields an error between those of the first line and of the last, and
these are the same where nothing stands in its place. -/
theorem scan_lineByLine_strayByte :
    IsLine beforeStray stray behindStray ∧ lineFeed ∉ ([] : List UInt8) ∧
      ∃ cause after, (store (.ok (beforeStray ++ stray ++ behindStray))).scan =
          .ok (.error (.protocol (.line 1 cause)) :: .error (.file .invalidText) :: after) ∧
        (store (.ok (beforeStray ++ [] ++ behindStray))).scan =
          .ok (.error (.protocol (.line 1 cause)) :: after) := by
  have hline : IsLine beforeStray stray behindStray :=
    ⟨.inr (by decide), by decide, .inr (by decide)⟩
  have hother : lineFeed ∉ ([] : List UInt8) := List.not_mem_nil
  obtain ⟨before, own, others, after, hbefore, hown, hothers, hscan, hreplaced⟩ :=
    (scan_lineByLine _).2.2 beforeStray stray [] behindStray rfl hline hother
  have hfirst : (store (.ok beforeStray)).scan =
      .ok [.error (.protocol (.line 1 (.json ⟨.endInObject, ⟨1, 1⟩⟩)))] := by decide +kernel
  have hstray : item? ((physical beforeStray).length + 1) (shown stray behindStray) =
      some (.error (.file .invalidText)) := by decide +kernel
  obtain rfl := Except.ok.inj (hbefore.symm.trans hfirst)
  obtain rfl := (lineYields_iff.mp hown).symm.trans hstray
  obtain rfl := (lineYields_iff.mp hothers).symm.trans (item?_nil _)
  exact ⟨hline, hother, _, after, hscan, hreplaced⟩

end TreeAudit.Store.Dump
