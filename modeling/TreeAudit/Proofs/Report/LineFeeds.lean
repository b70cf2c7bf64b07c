import TreeAudit.Proofs.Text.Splitting
import TreeAudit.Report.Text
import Mathlib.Algebra.BigOperators.Group.List.Basic
import Mathlib.Algebra.GroupWithZero.Nat

/-!
Line feeds in the readable text of an entry. The words and numbers in it hold none, so those that
there are come from the strings of the entry that are shown: the text of a status line, and the
check, the subject and the description of a finding (`Entry.lineFeeds_text`).
-/

set_option autoImplicit false
set_option relaxedAutoImplicit false

namespace TreeAudit

/-- How many line feeds a text holds. -/
def Text.lineFeeds (text : String) : ℕ := text.toList.count '\n'

open Text (lineFeeds)

namespace Text

@[simp]
theorem lineFeeds_append (s t : String) : lineFeeds (s ++ t) = lineFeeds s + lineFeeds t := by
  rw [lineFeeds, String.toList_append, List.count_append, lineFeeds, lineFeeds]

@[simp]
theorem lineFeeds_repr (n : ℕ) : lineFeeds n.repr = 0 := by
  refine List.count_eq_zero.mpr fun hmem ↦ ?_
  have hdigit : '\n'.isDigit = true := Unsigned.isDigit_of_mem_toString (n := n) hmem
  exact absurd hdigit (by decide)

@[simp]
theorem lineFeeds_pushn (s : String) {c : Char} (hc : c ≠ '\n') (n : ℕ) :
    lineFeeds (s.pushn c n) = lineFeeds s := by
  rw [String.pushn_eq_repeat_push]
  induction n with
  | zero => rfl
  | succ n ih =>
    rw [Nat.repeat, lineFeeds, String.toList_push, List.count_append, ← lineFeeds, ih,
      List.count_singleton, if_neg (by simpa using hc), Nat.add_zero]

end Text

open Text

theorem Numeric.Decimal.lineFeeds_fixed (places : ℕ) (x : Binary64) :
    lineFeeds (fixed places x) = 0 := by
  unfold fixed
  split
  · have hpoint : lineFeeds "." = 0 := by decide
    have hempty : lineFeeds "" = 0 := by decide
    have hzero : '0' ≠ '\n' := by decide
    simp [lineFeeds_pushn _ hzero, hpoint, hempty]
  · split_ifs <;> decide

namespace Duration

theorem lineFeeds_twoDigits (n : ℕ) : lineFeeds (twoDigits n) = 0 := by
  have hzero : lineFeeds "0" = 0 := by decide
  unfold twoDigits
  split_ifs <;> simp [hzero]

theorem lineFeeds_text (d : Duration) : lineFeeds d.text = 0 := by
  have hcolon : lineFeeds ":" = 0 := by decide
  have hseconds : lineFeeds "s" = 0 := by decide
  unfold text
  dsimp only
  split_ifs
  · simp [lineFeeds_twoDigits, hcolon]
  · simp [Numeric.Decimal.lineFeeds_fixed, hseconds]

end Duration

namespace Report

theorem Progress.lineFeeds_text (progress : Progress) : lineFeeds progress.text = 0 := by
  have hwords : ∀ word ∈ ["progress processed=", " done=", "%", " elapsed=", " eta=",
      " eta=unknown", ""], lineFeeds word = 0 := by decide
  obtain ⟨processed, fraction, elapsed, remaining⟩ := progress
  unfold text
  cases fraction <;> cases remaining <;>
    simp [hwords, Numeric.Decimal.lineFeeds_fixed, Duration.lineFeeds_text]

/-- The strings of an entry that its text shows as they are. -/
def Entry.shown : Entry → List String
  | finding f => f.check :: ((f.id.map DocumentId.text).toList ++ [f.description])
  | status text => [text]
  | progress _ | closing => []

theorem Finding.lineFeeds_text (finding : Finding) :
    lineFeeds finding.text = ((Entry.finding finding).shown.map lineFeeds).sum := by
  have hwords : ∀ word ∈ ["[", "] ", " ", ": ", ""], lineFeeds word = 0 := by decide
  have hlabel : lineFeeds finding.severity.label = 0 := by cases finding.severity <;> decide
  unfold text
  cases hid : finding.id <;> simp [Entry.shown, hwords, hlabel, hid, Nat.add_assoc]

/-- All line feeds in the text of an entry are those of the strings it shows. -/
theorem Entry.lineFeeds_text (entry : Entry) :
    lineFeeds entry.text = (entry.shown.map lineFeeds).sum := by
  cases entry with
  | finding f => exact f.lineFeeds_text
  | status text => simp [Entry.text, shown]
  | progress p => exact p.lineFeeds_text
  | closing => decide

end Report

end TreeAudit
