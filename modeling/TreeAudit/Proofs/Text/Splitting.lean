import TreeAudit.Text.Split
import TreeAudit.Text.Unsigned
import Mathlib.Data.List.Basic

/-!
Cutting texts that were put together from parts without the separator gives the parts
back, and a number written in decimal is read as itself.
-/

set_option autoImplicit false
set_option relaxedAutoImplicit false

namespace TreeAudit.Text

namespace Split

variable {separator : Char}

theorem atFirst?_append {before : List Char} (h : separator ∉ before) (after : List Char) :
    atFirst? separator (before ++ separator :: after) = some (before, after) := by
  induction before with
  | nil => simp [atFirst?]
  | cons c rest ih =>
    obtain ⟨hc, hrest⟩ := not_or.mp (List.mem_cons.not.mp h)
    rw [List.cons_append, atFirst?, if_neg (Ne.symm hc), ih hrest, Option.map_some]

theorem eq_of_atFirst? {text before after : List Char}
    (h : atFirst? separator text = some (before, after)) :
    text = before ++ separator :: after := by
  induction text generalizing before with
  | nil => exact absurd h (Option.some_ne_none _).symm
  | cons c rest ih =>
    by_cases hc : c = separator
    · rw [atFirst?, if_pos hc, Option.some.injEq, Prod.mk.injEq] at h
      rw [← h.1, ← h.2, hc, List.nil_append]
    · rw [atFirst?, if_neg hc, Option.map_eq_some_iff] at h
      obtain ⟨⟨others, tail⟩, hrest, heq⟩ := h
      obtain ⟨rfl, rfl⟩ := Prod.mk.inj heq
      rw [ih hrest, List.cons_append]

theorem beforeLast?_of_notMem {text : List Char} (h : separator ∉ text) :
    beforeLast? separator text = none := by
  induction text with
  | nil => rfl
  | cons c rest ih =>
    obtain ⟨hc, hrest⟩ := not_or.mp (List.mem_cons.not.mp h)
    rw [beforeLast?, ih hrest]
    exact if_neg (Ne.symm hc)

theorem beforeLast?_append (before : List Char) {after : List Char} (h : separator ∉ after) :
    beforeLast? separator (before ++ separator :: after) = some before := by
  induction before with
  | nil => rw [List.nil_append, beforeLast?, beforeLast?_of_notMem h, if_pos rfl]
  | cons c rest ih => rw [List.cons_append, beforeLast?, ih]

/-- A text with a separator in it can be cut at the last one. -/
theorem exists_beforeLast? {text : List Char} (h : separator ∈ text) :
    ∃ before after, beforeLast? separator text = some before ∧
      text = before ++ separator :: after := by
  induction text with
  | nil => exact absurd h List.not_mem_nil
  | cons c rest ih =>
    by_cases hrest : separator ∈ rest
    · obtain ⟨before, after, hcut, htext⟩ := ih hrest
      refine ⟨c :: before, after, ?_, by rw [htext, List.cons_append]⟩
      rw [beforeLast?, hcut]
    · obtain rfl := (List.mem_cons.mp h).resolve_right hrest
      refine ⟨[], rest, ?_, rfl⟩
      rw [beforeLast?, beforeLast?_of_notMem hrest]
      exact if_pos rfl

theorem dropTrailing_prefix (c : Char) (text : List Char) : dropTrailing c text <+: text := by
  unfold dropTrailing
  split_ifs
  · exact List.dropLast_prefix text
  · exact List.prefix_rfl

theorem dropTrailing_append {c : Char} (before : List Char) {after : List Char}
    (hafter : after ≠ []) (h : c ∉ after) :
    dropTrailing c (before ++ after) = before ++ after := by
  rw [dropTrailing, if_neg]
  intro hlast
  rw [List.getLast?_append_of_ne_nil _ hafter] at hlast
  exact h (List.mem_of_getLast? hlast)

theorem pieces_of_notMem {text : List Char} (h : separator ∉ text) :
    pieces separator text = [text] := by
  induction text with
  | nil => rfl
  | cons c rest ih =>
    obtain ⟨hc, hrest⟩ := not_or.mp (List.mem_cons.not.mp h)
    rw [pieces, if_neg (Ne.symm hc), ih hrest]

theorem pieces_append {piece : List Char} (h : separator ∉ piece) (rest : List Char) :
    pieces separator (piece ++ separator :: rest) = piece :: pieces separator rest := by
  induction piece with
  | nil => rw [List.nil_append, pieces, if_pos rfl]
  | cons c others ih =>
    obtain ⟨hc, hothers⟩ := not_or.mp (List.mem_cons.not.mp h)
    rw [List.cons_append, pieces, if_neg (Ne.symm hc), ih hothers]

/-- A text that begins with a piece and goes on with others, each behind a separator. -/
theorem pieces_append_flatMap {piece : List Char} {others : List (List Char)}
    (hpiece : separator ∉ piece) (hothers : ∀ other ∈ others, separator ∉ other) :
    pieces separator (piece ++ others.flatMap fun other ↦ separator :: other) =
      piece :: others := by
  induction others generalizing piece with
  | nil => rw [List.flatMap_nil, List.append_nil, pieces_of_notMem hpiece]
  | cons other others ih =>
    obtain ⟨hother, hrest⟩ := List.forall_mem_cons.mp hothers
    rw [List.flatMap_cons, List.cons_append, pieces_append hpiece, ih hother hrest]

/-- Pieces that each end with a separator are followed by an empty one. -/
theorem pieces_flatMap_append {parts : List (List Char)}
    (h : ∀ piece ∈ parts, separator ∉ piece) :
    pieces separator (parts.flatMap (· ++ [separator])) = parts ++ [[]] := by
  induction parts with
  | nil => rfl
  | cons piece others ih =>
    obtain ⟨hpiece, hothers⟩ := List.forall_mem_cons.mp h
    rw [List.flatMap_cons, List.append_assoc, List.singleton_append, pieces_append hpiece,
      ih hothers, List.cons_append]

/-- All parts but the first stand behind a separator. -/
theorem intercalate_cons (piece : List Char) (others : List (List Char)) :
    [separator].intercalate (piece :: others) = piece ++ others.flatMap (separator :: ·) := by
  induction others generalizing piece with
  | nil => rw [List.intercalate_singleton, List.flatMap_nil, List.append_nil]
  | cons other others ih =>
    rw [List.intercalate_cons_cons, ih, List.flatMap_cons, List.append_assoc,
      List.singleton_append, List.cons_append]

theorem pieces_ne_nil (text : List Char) : pieces separator text ≠ [] := by
  cases text with
  | nil => exact List.cons_ne_nil _ _
  | cons c rest =>
    unfold pieces
    split_ifs
    · exact List.cons_ne_nil _ _
    · cases pieces separator rest <;> exact List.cons_ne_nil _ _

theorem notMem_of_mem_pieces {text piece : List Char} (h : piece ∈ pieces separator text) :
    separator ∉ piece := by
  induction text generalizing piece with
  | nil =>
    obtain rfl := List.mem_singleton.mp h
    exact List.not_mem_nil
  | cons c rest ih =>
    by_cases hc : c = separator
    · rw [pieces, if_pos hc] at h
      obtain rfl | hrest := List.mem_cons.mp h
      · exact List.not_mem_nil
      · exact ih hrest
    · rw [pieces, if_neg hc] at h
      obtain ⟨first, others, hpieces⟩ := List.exists_cons_of_ne_nil (pieces_ne_nil rest)
      rw [hpieces] at h ih
      obtain rfl | hrest := List.mem_cons.mp h
      · exact List.mem_cons.not.mpr (not_or.mpr ⟨Ne.symm hc, ih List.mem_cons_self⟩)
      · exact ih (List.mem_cons_of_mem first hrest)

/-- The pieces with the separators between them make up the text. -/
theorem intercalate_pieces (text : List Char) :
    [separator].intercalate (pieces separator text) = text := by
  induction text with
  | nil => rfl
  | cons c rest ih =>
    obtain ⟨first, others, hpieces⟩ := List.exists_cons_of_ne_nil (pieces_ne_nil rest)
    rw [hpieces, intercalate_cons] at ih
    by_cases hc : c = separator
    · rw [pieces, if_pos hc, intercalate_cons, hpieces, List.flatMap_cons, List.nil_append,
        List.cons_append, ih, hc]
    · rw [pieces, if_neg hc, hpieces]
      show [separator].intercalate ((c :: first) :: others) = _
      rw [intercalate_cons, List.cons_append, ih]

theorem length_pieces (text : List Char) :
    (pieces separator text).length = text.count separator + 1 := by
  induction text with
  | nil => rfl
  | cons c rest ih =>
    by_cases hc : c = separator
    · rw [pieces, if_pos hc, List.length_cons, ih, hc, List.count_cons_self]
    · obtain ⟨first, others, hpieces⟩ := List.exists_cons_of_ne_nil (pieces_ne_nil rest)
      rw [pieces, if_neg hc, List.count_cons_of_ne hc, ← ih, hpieces]
      rfl

end Split

namespace Unsigned

theorem digit?_of_isDigit {c : Char} (h : c.isDigit = true) :
    digit? c = some (c.toNat - '0'.toNat) := by
  rw [Char.isDigit, Bool.and_eq_true, decide_eq_true_eq, decide_eq_true_eq] at h
  exact if_pos h

theorem digitsFrom?_of_isDigit {digits : List Char} (h : ∀ c ∈ digits, c.isDigit = true)
    (value : ℕ) : digitsFrom? value digits = some (Nat.ofDigitChars 10 digits value) := by
  rw [Nat.ofDigitChars_eq_foldl]
  induction digits generalizing value with
  | nil => rfl
  | cons c rest ih =>
    obtain ⟨hc, hrest⟩ := List.forall_mem_cons.mp h
    rw [digitsFrom?, digit?_of_isDigit hc]
    exact ih hrest _

theorem toList_toString (n : ℕ) : (toString n).toList = Nat.toDigits 10 n := by
  rw [Nat.toString_eq_ofList_toDigits, String.toList_ofList]

theorem isDigit_of_mem_toString {n : ℕ} {c : Char} (h : c ∈ (toString n).toList) :
    c.isDigit = true := by
  rw [toList_toString] at h
  exact Nat.isDigit_of_mem_toDigits (by decide) (by decide) h

theorem natural?_toString (n : ℕ) : natural? (toString n).toList = some n := by
  have hdigits := digitsFrom?_of_isDigit (fun _ h ↦ isDigit_of_mem_toString (n := n) h) 0
  rw [toList_toString] at hdigits ⊢
  rw [natural?, hdigits, Nat.ofDigitChars_ten_toDigits]
  exact fun hnil ↦ absurd hnil Nat.toDigits_ne_nil

/-- A machine word written in decimal is read as itself. -/
theorem unsigned?_toString {n : ℕ} (h : n < wordBound) :
    unsigned? (toString n).toList = some n := by
  unfold unsigned?
  split
  · next rest heq =>
    have hplus : '+'.isDigit = true := by
      refine isDigit_of_mem_toString (n := n) ?_
      rw [heq]
      exact List.mem_cons_self
    exact absurd hplus (by decide)
  · dsimp only
    rw [natural?_toString]
    exact if_pos h

end Unsigned

end TreeAudit.Text
