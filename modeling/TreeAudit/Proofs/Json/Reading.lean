import TreeAudit.Proofs.Json.Written
import TreeAudit.Json.Skip

/-!
Reading what is written, token by token. What a reader makes of a text and what it leaves of it does
not depend on the place in the text (`unplaced`, `left?`), so the places are left out. Blanks are
passed over (`exists_skipBlanks`), a string is read if its escapes tell of characters
(`unplaced_read_string`), and passed over in any case (`left?_skip_string`).
-/

set_option autoImplicit false
set_option relaxedAutoImplicit false

namespace TreeAudit.Json

/-! ### Readers without places -/

/-- What was read and the text left after it; nothing after a fault. -/
def unplaced {α : Type} : Except Error (α × Cursor) → Option (α × List Char)
  | .ok (a, cursor) => some (a, cursor.rest)
  | .error _ => none

/-- The text left; nothing after a fault. -/
def left? : Except Error Cursor → Option (List Char)
  | .ok cursor => some cursor.rest
  | .error _ => none

section Readers

variable {α β : Type} {x : Except Error (α × Cursor)} {y : Except Error Cursor}
  {rest : List Char}

theorem unplaced_eq_some_iff {a : α} :
    unplaced x = some (a, rest) ↔ ∃ place, x = .ok (a, ⟨rest, place⟩) := by
  constructor
  · intro h
    cases x with
    | error error => cases h
    | ok read =>
      obtain ⟨b, text, place⟩ := read
      obtain ⟨rfl, rfl⟩ := Prod.mk.inj (Option.some.inj h)
      exact ⟨place, rfl⟩
  · rintro ⟨place, rfl⟩
    rfl

theorem unplaced_eq_none_iff : unplaced x = none ↔ ∃ error, x = .error error := by
  cases x <;> simp [unplaced]

theorem left?_eq_some_iff : left? y = some rest ↔ ∃ place, y = .ok ⟨rest, place⟩ := by
  constructor
  · intro h
    cases y with
    | error error => cases h
    | ok cursor =>
      obtain rfl := Option.some.inj h
      exact ⟨cursor.place, rfl⟩
  · rintro ⟨place, rfl⟩
    rfl

/-- A reader after another takes up what the first one left. -/
theorem unplaced_bind {a? : Option α} (hx : unplaced x = a?.map (·, rest))
    {f : α × Cursor → Except Error (β × Cursor)} (next : α → Option (β × List Char))
    (hf : ∀ a place, a? = some a → unplaced (f (a, ⟨rest, place⟩)) = next a) :
    unplaced (x >>= f) = a?.bind next := by
  cases a? with
  | none =>
    obtain ⟨error, rfl⟩ := unplaced_eq_none_iff.mp hx
    rfl
  | some a =>
    obtain ⟨place, rfl⟩ := unplaced_eq_some_iff.mp hx
    exact hf a place rfl

/-- A reader that only makes something of what was read. -/
theorem unplaced_bind_map {a? : Option α} (hx : unplaced x = a?.map (·, rest))
    {f : α × Cursor → Except Error (β × Cursor)} (make : α → β)
    (hf : ∀ a place, f (a, ⟨rest, place⟩) = .ok (make a, ⟨rest, place⟩)) :
    unplaced (x >>= f) = (a?.map make).map (·, rest) := by
  refine (unplaced_bind hx (fun a ↦ some (make a, rest)) fun a place _ ↦ ?_).trans ?_
  · rw [hf]
    rfl
  · cases a? <;> rfl

theorem unplaced_bind_left (hy : left? y = some rest)
    {f : Cursor → Except Error (β × Cursor)} {result : Option (β × List Char)}
    (hf : ∀ place, unplaced (f ⟨rest, place⟩) = result) : unplaced (y >>= f) = result := by
  obtain ⟨place, rfl⟩ := left?_eq_some_iff.mp hy
  exact hf place

theorem left?_bind (hy : left? y = some rest) {f : Cursor → Except Error Cursor}
    {result : Option (List Char)} (hf : ∀ place, left? (f ⟨rest, place⟩) = result) :
    left? (y >>= f) = result := by
  obtain ⟨place, rfl⟩ := left?_eq_some_iff.mp hy
  exact hf place

end Readers

/-! ### Blanks and words -/

namespace Cursor

theorem isBlank_char (blank : Blank) : isBlank blank.char = true := by
  cases blank <;> rfl

/-- A gap is passed over up to the next token. -/
theorem exists_skipBlanks (gap : Gap) {c : Char} (hc : isBlank c = false) (rest : List Char)
    (place : Place) :
    ∃ place', (⟨gap.text ++ c :: rest, place⟩ : Cursor).skipBlanks = ⟨c :: rest, place'⟩ := by
  induction gap generalizing place with
  | nil =>
    refine ⟨place, ?_⟩
    simp [Gap.text, skipBlanks, skipBlanks.go, hc]
  | cons blank gap ih =>
    obtain ⟨place', hrest⟩ := ih (place.after blank.char)
    refine ⟨place', ?_⟩
    rw [skipBlanks] at hrest ⊢
    rw [Gap.text, List.map_cons, List.cons_append, skipBlanks.go, if_pos (isBlank_char blank)]
    exact hrest

/-- At the end of a text. -/
theorem exists_skipBlanks_end (gap : Gap) (place : Place) :
    ∃ place', (⟨gap.text, place⟩ : Cursor).skipBlanks = ⟨[], place'⟩ := by
  induction gap generalizing place with
  | nil => exact ⟨place, rfl⟩
  | cons blank gap ih =>
    obtain ⟨place', hrest⟩ := ih (place.after blank.char)
    refine ⟨place', ?_⟩
    rw [skipBlanks] at hrest ⊢
    rw [Gap.text, List.map_cons, skipBlanks.go, if_pos (isBlank_char blank)]
    exact hrest

theorem left?_word (letters rest : List Char) (place : Place) :
    left? ((⟨letters ++ rest, place⟩ : Cursor).word letters) = some rest := by
  induction letters generalizing place with
  | nil => rfl
  | cons letter letters ih =>
    simp only [word, List.cons_append, if_true, next]
    exact ih _

end Cursor

/-! ### Strings -/

namespace Chars

theorem hexValue?_char (digit : HexDigit) : hexValue? digit.char = some (digit.value : ℕ) := by
  obtain ⟨value, isUpper⟩ := digit
  revert value isUpper
  decide

theorem hexUnit?_char (a b c d : HexDigit) :
    hexUnit? a.char b.char c.char d.char = some (Piece.unitValue a b c d) := by
  simp only [hexUnit?, hexValue?_char, Piece.unitValue]

theorem isTrailing_of_isLeading {unit : ℕ} (h : isLeading unit = true) :
    isTrailing unit = false := by
  simp only [isLeading, isTrailing, Bool.and_eq_true, decide_eq_true_eq, Bool.and_eq_false_imp,
    decide_eq_false_iff_not] at h ⊢
  omega

section Pieces

variable (done : List Char) (place : Place) (rest : List Char)

/-- A piece that needs no other is read as its character. -/
theorem exists_readFrom_alone (piece : Piece) {c : Char} (h : piece.alone? = some c) :
    ∃ place', readFrom done place (piece.text ++ rest) = readFrom (c :: done) place' rest := by
  cases piece with
  | plain own isPlain =>
    obtain rfl := Option.some.inj h
    have ⟨hquote, hbackslash, hcontrol⟩ := isPlain
    refine ⟨place.after own, ?_⟩
    show readFrom done place (own :: rest) = _
    rw [readFrom]
    · rw [if_neg (Nat.not_lt.mpr hcontrol)]
    · exact hquote
    all_goals simp [hbackslash]
  | letter l =>
    obtain rfl := Option.some.inj h
    refine ⟨Place.across place 2, ?_⟩
    cases l <;> simp [Piece.text, readFrom, Letter.written, Letter.meant, letterEscape?]
  | unit a b c d =>
    simp only [Piece.alone?, Option.ite_none_left_eq_some, not_or, Bool.not_eq_true,
      Option.some.injEq] at h
    obtain ⟨⟨htrailing, hleading⟩, rfl⟩ := h
    refine ⟨Place.across place 6, ?_⟩
    simp only [Piece.text, List.cons_append, List.nil_append]
    rw [readFrom]
    simp only [hexUnit?_char, htrailing, hleading]
    rfl

variable {a b c d : HexDigit}

/-- The two halves of a surrogate pair are read as one character. -/
theorem exists_readFrom_pair (hleading : isLeading (Piece.unitValue a b c d) = true)
    {a' b' c' d' : HexDigit} (htrailing : isTrailing (Piece.unitValue a' b' c' d') = true) :
    ∃ place', readFrom done place ('\\' :: 'u' :: a.char :: b.char :: c.char :: d.char ::
      '\\' :: 'u' :: a'.char :: b'.char :: c'.char :: d'.char :: rest) =
        readFrom
          (Char.ofNat (pairValue (Piece.unitValue a b c d) (Piece.unitValue a' b' c' d')) :: done)
          place' rest := by
  refine ⟨Place.across (Place.across place 6) 6, ?_⟩
  rw [readFrom]
  simp only [hexUnit?_char, isTrailing_of_isLeading hleading, hleading, htrailing]
  rfl

/-- Nothing that completes a surrogate pair follows. -/
def NoTrailing (rest : List Char) : Prop :=
  (∀ text, rest ≠ '\\' :: 'u' :: text) ∨
    ∃ (a b c d : HexDigit) (text : List Char), isTrailing (Piece.unitValue a b c d) = false ∧
      rest = '\\' :: 'u' :: a.char :: b.char :: c.char :: d.char :: text

/-- One half of a surrogate pair cannot be read. -/
theorem exists_readFrom_half (h : isTrailing (Piece.unitValue a b c d) = true ∨
      isLeading (Piece.unitValue a b c d) = true ∧ NoTrailing rest) :
    ∃ error, readFrom done place
      ('\\' :: 'u' :: a.char :: b.char :: c.char :: d.char :: rest) = .error error := by
  rw [readFrom]
  rcases h with htrailing | ⟨hleading, hrest | ⟨a', b', c', d', text, htrailing, rfl⟩⟩
  · simp only [hexUnit?_char, htrailing]
    exact ⟨_, rfl⟩
  · simp only [hexUnit?_char, isTrailing_of_isLeading hleading, hleading, Bool.false_eq_true,
      if_false, if_true]
    split
    · exact absurd rfl (hrest _)
    · exact ⟨_, rfl⟩
  · simp only [hexUnit?_char, isTrailing_of_isLeading hleading, hleading, htrailing]
    exact ⟨_, rfl⟩

end Pieces

/-- What follows a leading surrogate is a unit, or else does not look like one. -/
theorem text_ne_unit {spelling : Spelling}
    (h : ∀ a b c d others, spelling = .unit a b c d :: others → False) (rest text : List Char) :
    spelling.text ++ '"' :: rest ≠ '\\' :: 'u' :: text := by
  cases spelling with
  | nil => simp [Spelling.text]
  | cons piece others =>
    cases piece with
    | plain c hplain => simp [Spelling.text, Piece.text, hplain.2.1]
    | letter l => cases l <;> simp [Spelling.text, Piece.text, Letter.written]
    | unit a b c d => exact (h a b c d others rfl).elim

/-- A character that has been read stands in front of those still to be read. -/
theorem map_cons_done (chars? : Option (List Char)) (c : Char) (done rest : List Char) :
    (chars?.map fun chars ↦ ((c :: done).reverse ++ chars, rest)) =
      (chars?.map (c :: ·)).map fun chars ↦ (done.reverse ++ chars, rest) := by
  rw [Option.map_map]
  congr 1
  funext chars
  simp

/-- The characters of a string are read after those before them. -/
theorem unplaced_readFrom (spelling : Spelling) (done : List Char) (place : Place)
    (rest : List Char) :
    unplaced (readFrom done place (spelling.text ++ '"' :: rest)) =
      spelling.chars?.map fun chars ↦ (done.reverse ++ chars, rest) := by
  induction spelling using Spelling.chars?.induct generalizing done place with
  | case1 => simp [Spelling.text, readFrom, unplaced, Spelling.chars?]
  | case2 c hplain others ih =>
    obtain ⟨place', hread⟩ := exists_readFrom_alone done place
      (Spelling.text others ++ '"' :: rest) (.plain c hplain) rfl
    rw [Spelling.chars?, ← map_cons_done, ← ih _ place']
    exact congrArg unplaced hread
  | case3 l others ih =>
    obtain ⟨place', hread⟩ := exists_readFrom_alone done place
      (Spelling.text others ++ '"' :: rest) (.letter l) rfl
    rw [Spelling.chars?, ← map_cons_done, ← ih _ place']
    exact congrArg unplaced hread
  | case4 a b c d others htrailing =>
    rw [Spelling.chars?.eq_def]
    simp only [htrailing, if_true, Option.map_none, unplaced_eq_none_iff]
    exact exists_readFrom_half _ _ _ (.inl htrailing)
  | case5 a b c d htrailing hleading a' b' c' d' others htrailing' ih =>
    obtain ⟨place', hread⟩ := exists_readFrom_pair done place
      (Spelling.text others ++ '"' :: rest) hleading htrailing'
    rw [Spelling.chars?.eq_def]
    simp only [htrailing, hleading, htrailing', if_true, Bool.false_eq_true, if_false]
    rw [← map_cons_done, ← ih _ place']
    exact congrArg unplaced hread
  | case6 a b c d htrailing hleading a' b' c' d' others htrailing' =>
    rw [Spelling.chars?.eq_def]
    simp only [htrailing, hleading, htrailing', if_true, Bool.false_eq_true, if_false,
      Option.map_none, unplaced_eq_none_iff]
    exact exists_readFrom_half _ _ _
      (.inr ⟨hleading, .inr ⟨a', b', c', d', _, Bool.eq_false_iff.mpr htrailing', rfl⟩⟩)
  | case7 a b c d others htrailing hleading hothers =>
    have hnone : Spelling.chars? (.unit a b c d :: others) = none := by
      rw [Spelling.chars?.eq_def]
      simp only [htrailing, hleading, if_true, Bool.false_eq_true, if_false]
    rw [hnone, Option.map_none, unplaced_eq_none_iff]
    exact exists_readFrom_half _ _ _ (.inr ⟨hleading, .inl (text_ne_unit hothers rest)⟩)
  | case8 a b c d others htrailing hleading ih =>
    have halone : (Piece.unit a b c d).alone? = some (Char.ofNat (Piece.unitValue a b c d)) := by
      simp [Piece.alone?, htrailing, hleading]
    obtain ⟨place', hread⟩ := exists_readFrom_alone done place
      (Spelling.text others ++ '"' :: rest) (.unit a b c d) halone
    rw [Spelling.chars?.eq_def]
    simp only [htrailing, hleading, Bool.false_eq_true, if_false]
    rw [← map_cons_done, ← ih _ place']
    exact congrArg unplaced hread

/-- A string is read, from after its opening quotation mark, if its escapes tell of characters. -/
theorem unplaced_read_string (spelling : Spelling) (rest : List Char) (place : Place) :
    unplaced (read ⟨spelling.text ++ '"' :: rest, place⟩) =
      spelling.string?.map (·, rest) := by
  have hread := unplaced_readFrom spelling [] place rest
  rw [read]
  cases hchars : spelling.chars? with
  | none =>
    rw [hchars, Option.map_none, unplaced_eq_none_iff] at hread
    obtain ⟨error, herror⟩ := hread
    rw [herror, Spelling.string?, hchars]
    rfl
  | some chars =>
    rw [hchars, Option.map_some, unplaced_eq_some_iff] at hread
    obtain ⟨place', hok⟩ := hread
    rw [hok, Spelling.string?, hchars]
    rfl

/-- A string is passed over whatever its escapes tell of. -/
theorem left?_skip_string (spelling : Spelling) (rest : List Char) (place : Place) :
    left? (skip ⟨spelling.text ++ '"' :: rest, place⟩) = some rest := by
  rw [skip]
  induction spelling generalizing place with
  | nil => rfl
  | cons piece others ih =>
    obtain ⟨place', hskip⟩ : ∃ place', skipFrom place
        (piece.text ++ (Spelling.text others ++ '"' :: rest)) =
          skipFrom place' (Spelling.text others ++ '"' :: rest) := by
      cases piece with
      | plain c isPlain =>
        have ⟨hquote, hbackslash, hcontrol⟩ := isPlain
        refine ⟨place.after c, ?_⟩
        show skipFrom place (c :: (Spelling.text others ++ '"' :: rest)) = _
        rw [skipFrom]
        · rw [if_neg (Nat.not_lt.mpr hcontrol)]
        · exact hquote
        all_goals simp [hbackslash]
      | letter l =>
        refine ⟨Place.across place 2, ?_⟩
        cases l <;> simp [Piece.text, skipFrom, Letter.written, letterEscape?]
      | unit a b c d =>
        refine ⟨Place.across place 6, ?_⟩
        simp only [Piece.text, List.cons_append, List.nil_append]
        rw [skipFrom]
        simp only [hexUnit?_char]
    rw [Spelling.text, List.flatMap_cons, List.append_assoc]
    exact (congrArg left? hskip).trans (ih place')

end Chars

end TreeAudit.Json
