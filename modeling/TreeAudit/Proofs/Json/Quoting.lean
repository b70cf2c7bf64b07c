import TreeAudit.Proofs.Json.Values
import TreeAudit.Json.Quoted

/-!
Strings as they are written by quoting. Each character becomes one piece that stands for it alone
(`exists_piece`), so quoting a string is one of the spellings of this string (`exists_spelling`)
and a reader gets the string back. No control character is left in what was quoted
(`not_control_encode`).
-/

set_option autoImplicit false
set_option relaxedAutoImplicit false

namespace TreeAudit.Json

/-- A line break is a control character, and so are a few others. -/
def NotControl (c : Char) : Prop := 32 ≤ c.toNat

instance : DecidablePred NotControl := fun c ↦ inferInstanceAs (Decidable (32 ≤ c.toNat))

theorem HexDigit.not_control (digit : HexDigit) : NotControl digit.char := by
  obtain ⟨value, isUpper⟩ := digit
  revert value isUpper
  decide

/-- No piece of a string is written with a control character. -/
theorem Piece.not_control {piece : Piece} {c : Char} (h : c ∈ piece.text) : NotControl c := by
  cases piece with
  | plain own isPlain =>
    obtain rfl := List.mem_singleton.mp h
    exact isPlain.2.2
  | letter l =>
    have hletter : ∀ c ∈ (Piece.letter l).text, NotControl c := by
      cases l <;> simp [Piece.text, Letter.written, NotControl]
    exact hletter c h
  | unit a b c' d =>
    simp only [Piece.text, List.mem_cons, List.not_mem_nil, or_false] at h
    obtain rfl | rfl | rfl | rfl | rfl | rfl := h
    · decide
    · decide
    · exact a.not_control
    · exact b.not_control
    · exact c'.not_control
    · exact d.not_control

theorem Spelling.not_control_quoted {spelling : Spelling} {c : Char} (h : c ∈ spelling.quoted) :
    NotControl c := by
  rw [Spelling.quoted, List.mem_cons, List.mem_append, Spelling.text, List.mem_flatMap] at h
  obtain rfl | ⟨piece, -, hpiece⟩ | hclose := h
  · decide
  · exact Piece.not_control hpiece
  · obtain rfl := List.mem_singleton.mp hclose
    decide

namespace Quoted

/-! ### One character -/

/-- A digit as an escape writes it. -/
def digit (n : Fin 16) : HexDigit := ⟨n, false⟩

theorem char_digit (n : Fin 16) : (digit n).char = hexDigit n := by
  revert n
  decide

/-- A control character that is escaped by its digits. -/
theorem exists_piece_control {c : Char} (hc : ¬ NotControl c) :
    ∃ piece : Piece,
      piece.text = ['\\', 'u', '0', '0', hexDigit (c.toNat / 16), hexDigit (c.toNat % 16)] ∧
        piece.alone? = some c := by
  have hsmall : c.toNat < 32 := Nat.lt_of_not_le hc
  have hhigh : c.toNat / 16 < 16 := by omega
  have hlow : c.toNat % 16 < 16 := by omega
  have hvalue : Piece.unitValue (digit 0) (digit 0) (digit ⟨_, hhigh⟩) (digit ⟨_, hlow⟩) =
      c.toNat := by
    simp only [Piece.unitValue, digit, Fin.val_zero]
    omega
  refine ⟨.unit (digit 0) (digit 0) (digit ⟨_, hhigh⟩) (digit ⟨_, hlow⟩), ?_, ?_⟩
  · rw [Piece.text, char_digit 0, char_digit ⟨_, hhigh⟩, char_digit ⟨_, hlow⟩]
    rfl
  · have hhalf : ¬ (Chars.isTrailing c.toNat = true ∨ Chars.isLeading c.toNat = true) := by
      simp only [Chars.isTrailing, Chars.isLeading, Bool.and_eq_true, decide_eq_true_eq]
      omega
    rw [Piece.alone?, hvalue, if_neg hhalf, Char.ofNat_toNat]

/-- What is written for a character is one piece of a string, and stands for this character. -/
theorem exists_piece (c : Char) :
    ∃ piece : Piece, piece.text = escape c ∧ piece.alone? = some c := by
  unfold escape
  by_cases hquote : c = '"'
  · exact ⟨.letter .quotationMark, by rw [if_pos hquote]; rfl, by rw [hquote]; rfl⟩
  by_cases hbackslash : c = '\\'
  · exact ⟨.letter .backslash, by rw [hbackslash]; rfl, by rw [hbackslash]; rfl⟩
  by_cases hbackspace : c = '\x08'
  · exact ⟨.letter .backspace, by rw [hbackspace]; rfl, by rw [hbackspace]; rfl⟩
  by_cases htab : c = '\t'
  · exact ⟨.letter .tab, by rw [htab]; rfl, by rw [htab]; rfl⟩
  by_cases hlineFeed : c = '\n'
  · exact ⟨.letter .lineFeed, by rw [hlineFeed]; rfl, by rw [hlineFeed]; rfl⟩
  by_cases hformFeed : c = '\x0c'
  · exact ⟨.letter .formFeed, by rw [hformFeed]; rfl, by rw [hformFeed]; rfl⟩
  by_cases hreturn : c = '\r'
  · exact ⟨.letter .carriageReturn, by rw [hreturn]; rfl, by rw [hreturn]; rfl⟩
  rw [if_neg hquote, if_neg hbackslash, if_neg hbackspace, if_neg htab, if_neg hlineFeed,
    if_neg hformFeed, if_neg hreturn]
  by_cases hcontrol : c.toNat < 32
  · rw [if_pos hcontrol]
    exact exists_piece_control (Nat.not_le.mpr hcontrol)
  · rw [if_neg hcontrol]
    exact ⟨.plain c ⟨hquote, hbackslash, Nat.not_lt.mp hcontrol⟩, rfl, rfl⟩

/-! ### The whole string -/

theorem chars?_cons_of_alone {piece : Piece} {c : Char} (h : piece.alone? = some c)
    (rest : Spelling) : Spelling.chars? (piece :: rest) = (Spelling.chars? rest).map (c :: ·) := by
  cases piece with
  | plain own isPlain =>
    obtain rfl := Option.some.inj h
    rfl
  | letter l =>
    obtain rfl := Option.some.inj h
    rfl
  | unit a b c' d =>
    simp only [Piece.alone?, Option.ite_none_left_eq_some, not_or, Bool.not_eq_true,
      Option.some.injEq] at h
    obtain ⟨⟨htrailing, hleading⟩, rfl⟩ := h
    rw [Spelling.chars?.eq_def]
    simp only [htrailing, hleading, Bool.false_eq_true, if_false]

/-- Quoting spells out the string. -/
theorem exists_spelling (text : List Char) :
    ∃ spelling : Spelling, spelling.quoted = encode text ∧ spelling.chars? = some text := by
  have hpieces : ∃ spelling : Spelling,
      spelling.text = text.flatMap escape ∧ spelling.chars? = some text := by
    induction text with
    | nil => exact ⟨[], rfl, rfl⟩
    | cons c rest ih =>
      obtain ⟨piece, hpiece, halone⟩ := exists_piece c
      obtain ⟨spelling, htext, hchars⟩ := ih
      refine ⟨piece :: spelling, ?_, ?_⟩
      · rw [Spelling.text, List.flatMap_cons, hpiece, ← Spelling.text, htext, List.flatMap_cons]
      · rw [chars?_cons_of_alone halone, hchars, Option.map_some]
  obtain ⟨spelling, htext, hchars⟩ := hpieces
  refine ⟨spelling, ?_, hchars⟩
  rw [Spelling.quoted, htext]
  rfl

theorem not_control_encode {text : List Char} {c : Char} (h : c ∈ encode text) :
    NotControl c := by
  obtain ⟨spelling, hquoted, -⟩ := exists_spelling text
  rw [← hquoted] at h
  exact spelling.not_control_quoted h

theorem toList_quote (text : String) : (quote text).toList = encode text.toList :=
  String.toList_ofList

end Quoted

end TreeAudit.Json
