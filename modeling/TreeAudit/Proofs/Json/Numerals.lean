import TreeAudit.Proofs.Json.Reading

/-!
Reading a numeral. What a run of digits comes to does not depend on what follows, as long as that is
no digit (`NoDigit`); after a whole numeral stands a blank, a comma, a closing bracket or nothing
(`Delimited`). Exponent, fraction and whole number are read one inside the other, so there is one
lemma for each, from the innermost to `unplaced_read_literal`: a numeral is read as the number it
means, if that is not too large. It is passed over in any case (`left?_skip_literal`).
-/

set_option autoImplicit false
set_option relaxedAutoImplicit false

namespace TreeAudit.Json

/-- What can follow a value. -/
def delimiters : List Char := [' ', '\n', '\t', '\r', ',', ']', '\x7d']

def Delimited (rest : List Char) : Prop := ∀ c ∈ rest.head?, c ∈ delimiters

namespace Numeral

/-! ### Runs of digits -/

theorem isDigit_char (digit : Fin 10) : isDigit (Digits.char digit) = true := by
  revert digit
  decide

theorem digitValue_char (digit : Fin 10) : digitValue (Digits.char digit) = digit := by
  revert digit
  decide

theorem char_eq_zero_iff (digit : Fin 10) : Digits.char digit = '0' ↔ digit = 0 := by
  revert digit
  decide

def NoDigit (rest : List Char) : Prop := ∀ c ∈ rest.head?, isDigit c = false

section Runs

variable {rest : List Char} (place : Place)

theorem startsWithDigit_eq_false (h : NoDigit rest) : startsWithDigit ⟨rest, place⟩ = false := by
  cases rest with
  | nil => rfl
  | cons c rest => exact h c rfl

theorem startsWithDigit_char (digit : Fin 10) :
    startsWithDigit ⟨Digits.char digit :: rest, place⟩ = true :=
  isDigit_char digit

theorem exists_skipDigits (digits : List (Fin 10)) (h : NoDigit rest) :
    ∃ place', skipDigits ⟨Digits.text digits ++ rest, place⟩ = ⟨rest, place'⟩ := by
  induction digits generalizing place with
  | nil =>
    refine ⟨place, ?_⟩
    cases rest with
    | nil => rfl
    | cons c rest =>
      have hc : isDigit c = false := h c rfl
      simp [skipDigits, skipDigits.go, Digits.text, hc]
  | cons digit digits ih =>
    obtain ⟨place', hrest⟩ := ih (place.after (Digits.char digit))
    refine ⟨place', ?_⟩
    rw [skipDigits] at hrest ⊢
    rw [Digits.text, List.map_cons, List.cons_append, skipDigits.go, if_pos (isDigit_char digit)]
    exact hrest

theorem exists_fittingDigits_go (digits : List (Fin 10)) (h : NoDigit rest)
    (significand count : ℕ) :
    ∃ place', fittingDigits.go significand count (Digits.text digits ++ rest) place =
      ((Digits.fit significand digits).1, count + (Digits.fit significand digits).2,
        ⟨Digits.text (digits.drop (Digits.fit significand digits).2) ++ rest, place'⟩) := by
  induction digits generalizing significand count place with
  | nil =>
    refine ⟨place, ?_⟩
    cases rest with
    | nil => rfl
    | cons c rest =>
      have hc : isDigit c = false := h c rfl
      simp [fittingDigits.go, Digits.text, Digits.fit, hc]
  | cons digit digits ih =>
    rw [Digits.text, List.map_cons, List.cons_append, fittingDigits.go, digitValue_char,
      Digits.fit]
    by_cases hfits : significand * 10 + digit < wordBound
    · obtain ⟨place', hrest⟩ :=
        ih (place.after (Digits.char digit)) (significand * 10 + digit) (count + 1)
      refine ⟨place', ?_⟩
      rw [if_pos ⟨isDigit_char digit, hfits⟩, if_pos hfits]
      refine hrest.trans ?_
      simp only [List.drop_succ_cons]
      rw [Nat.add_right_comm, Nat.add_assoc]
    · refine ⟨place, ?_⟩
      rw [if_neg fun h ↦ hfits h.2, if_neg hfits]
      rfl

/-- The digits that fit are taken, and the others are left. -/
theorem exists_fittingDigits (digits : List (Fin 10)) (h : NoDigit rest) (significand : ℕ) :
    ∃ place', fittingDigits significand ⟨Digits.text digits ++ rest, place⟩ =
      ((Digits.fit significand digits).1, (Digits.fit significand digits).2,
        ⟨Digits.text (digits.drop (Digits.fit significand digits).2) ++ rest, place'⟩) := by
  obtain ⟨place', hgo⟩ := exists_fittingDigits_go place digits h significand 0
  exact ⟨place', by rw [fittingDigits, hgo, Nat.zero_add]⟩

theorem le_extend (value : ℕ) (digits : List (Fin 10)) : value ≤ Digits.extend value digits := by
  induction digits generalizing value with
  | nil => exact Nat.le_refl _
  | cons digit digits ih => exact Nat.le_trans (by omega) (ih (value * 10 + digit))

/-- The value of the run, or a sign that the run passes the bound. -/
theorem exists_boundedDigits (digits : List (Fin 10)) (h : NoDigit rest) (value : ℕ) :
    if Digits.extend value digits < exponentBound then
      ∃ place', boundedDigits value ⟨Digits.text digits ++ rest, place⟩ =
        (Digits.extend value digits, false, ⟨rest, place'⟩)
    else
      value < exponentBound →
        ∃ value' remaining place', boundedDigits value ⟨Digits.text digits ++ rest, place⟩ =
          (value', true, ⟨Digits.text remaining ++ rest, place'⟩) := by
  induction digits generalizing value place with
  | nil =>
    rw [Digits.extend, List.foldl_nil]
    split
    · refine ⟨place, ?_⟩
      cases rest with
      | nil => rfl
      | cons c rest =>
        have hc : isDigit c = false := h c rfl
        simp [boundedDigits, boundedDigits.go, Digits.text, hc]
    · exact fun hvalue ↦ absurd hvalue ‹_›
  | cons digit digits ih =>
    have hstep := ih (place.after (Digits.char digit)) (value * 10 + digit)
    simp only [boundedDigits] at hstep ⊢
    rw [Digits.text, List.map_cons, List.cons_append, boundedDigits.go, if_pos (isDigit_char digit),
      digitValue_char]
    by_cases hbound : value * 10 + digit < exponentBound
    · simp only [if_pos hbound]
      split at hstep
      · rename_i hextend
        exact (if_pos hextend).mpr hstep
      · rename_i hextend
        exact (if_neg hextend).mpr fun _ ↦ hstep hbound
    · have hextend : ¬ Digits.extend value (digit :: digits) < exponentBound :=
        fun h ↦ hbound (Nat.lt_of_le_of_lt (le_extend _ digits) h)
      simp only [if_neg hbound, if_neg hextend]
      exact fun _ ↦ ⟨value, digits, _, rfl⟩

end Runs

/-! ### The parts of a numeral -/

section Parts

variable {rest : List Char}

theorem startsWith_of_delimited (h : Delimited rest) (letters : List Char)
    (hletters : (delimiters.all fun c ↦ !letters.contains c) = true) (place : Place) :
    startsWith ⟨rest, place⟩ letters = false := by
  cases rest with
  | nil => rfl
  | cons c rest => exact (Bool.not_eq_true' _).mp (List.all_eq_true.mp hletters c (h c rfl))

theorem noDigit_of_delimited (h : Delimited rest) : NoDigit rest := by
  have hdelimiters : (delimiters.all fun c ↦ !isDigit c) = true := by decide
  exact fun c hc ↦ (Bool.not_eq_true' _).mp (List.all_eq_true.mp hdelimiters c (h c hc))

theorem noDigit_exponentText (exponent : Option Exponent) (h : Delimited rest) :
    NoDigit (Literal.exponentText exponent ++ rest) := by
  cases exponent with
  | none => exact noDigit_of_delimited h
  | some exponent =>
    rintro c hc
    obtain ⟨isUpper, sign, digits⟩ := exponent
    obtain rfl := Option.some.inj hc
    cases isUpper <;> rfl

theorem noDigit_fractionText (fraction : Option Digits) (h : NoDigit rest) :
    NoDigit (Literal.fractionText fraction ++ rest) := by
  cases fraction with
  | none => exact h
  | some digits =>
    rintro c hc
    obtain rfl := Option.some.inj hc
    decide

/-- Past the sign of an exponent, if there is one. -/
theorem exists_afterSign (sign : Option Sign) (digits : Digits) (rest : List Char)
    (place : Place) :
    let cursor : Cursor :=
      ⟨(sign.map Sign.char).toList ++ (Digits.text digits.toList ++ rest), place⟩
    startsWith cursor ['-'] = decide (sign = some .minus) ∧
      ∃ place', (if startsWith cursor ['+', '-'] then cursor.next else cursor) =
        ⟨Digits.text digits.toList ++ rest, place'⟩ := by
  obtain ⟨first, others⟩ := digits
  have hdigit : ['-'].contains (Digits.char first) = false ∧
      ['+', '-'].contains (Digits.char first) = false := by
    revert first
    decide
  rcases sign with - | - | -
  · refine ⟨hdigit.1, place, if_neg (Bool.eq_false_iff.mp hdigit.2)⟩
  · exact ⟨rfl, _, rfl⟩
  · exact ⟨rfl, _, rfl⟩

theorem unplaced_float (isNegative : Bool) (significand : ℕ) (shift : ℤ) (rest : List Char)
    (place : Place) :
    unplaced (float isNegative significand shift ⟨rest, place⟩) =
      (Literal.float? isNegative significand shift).map (·, rest) := by
  rw [float, Literal.float?]
  cases hmagnitude : ofParts? significand shift <;> rfl

theorem unplaced_withExponent (isNegative : Bool) (significand : ℕ) (shift : ℤ)
    (exponent : Exponent) (h : Delimited rest) (place : Place) :
    unplaced (withExponent isNegative significand shift ⟨exponent.text ++ rest, place⟩) =
      (Literal.scaled? isNegative significand shift (some exponent)).map (·, rest) := by
  obtain ⟨isUpper, sign, first, others⟩ := exponent
  obtain ⟨hdown, place', hsign⟩ :=
    exists_afterSign sign ⟨first, others⟩ rest (place.after (if isUpper then 'E' else 'e'))
  have hvalue : Exponent.value ⟨isUpper, sign, first, others⟩ = Digits.extend first others := by
    simp [Exponent.value, Digits.toList, Digits.extend]
  have hdigits :=
    exists_boundedDigits (place'.after (Digits.char first)) others (noDigit_of_delimited h) first
  rw [withExponent]
  simp only [Exponent.text, List.cons_append, List.append_assoc, Cursor.next, hdown] at hsign ⊢
  rw [hsign]
  simp only [Digits.text, Digits.toList, List.map_cons, List.cons_append, isDigit_char, if_true,
    digitValue_char] at hdigits ⊢
  rw [Literal.scaled?, Option.elim_some, hvalue]
  -- An exponent out of bounds is not kept, so only its sign and the significand matter then.
  by_cases hfits : Digits.extend first others < exponentBound
  · rw [if_pos hfits] at hdigits
    obtain ⟨place₂, hbounded⟩ := hdigits
    rw [hbounded, if_pos hfits]
    simp only [Bool.false_eq_true, if_false, decide_eq_true_eq]
    exact unplaced_float _ _ _ _ _
  · rw [if_neg hfits] at hdigits
    have hfirst : (first : ℕ) < exponentBound := Nat.lt_of_lt_of_le first.isLt (by decide)
    obtain ⟨value, remaining, place₂, hbounded⟩ := hdigits hfirst
    obtain ⟨place₃, hrest⟩ := exists_skipDigits place₂ remaining (noDigit_of_delimited h)
    rw [hbounded, if_neg hfits]
    simp only [if_true, decide_eq_false_iff_not]
    split
    · rfl
    · exact congrArg (fun cursor : Cursor ↦ some (_, cursor.rest)) hrest

theorem startsWith_exponentText (exponent : Exponent) (rest : List Char) (place : Place) :
    startsWith ⟨exponent.text ++ rest, place⟩ ['.'] = false ∧
      startsWith ⟨exponent.text ++ rest, place⟩ ['e', 'E'] = true := by
  obtain ⟨isUpper, sign, digits⟩ := exponent
  cases isUpper <;> exact ⟨rfl, rfl⟩

theorem unplaced_exponentOrEnd (isNegative : Bool) (significand : ℕ) (shift : ℤ)
    (exponent : Option Exponent) (h : Delimited rest) (place : Place) :
    unplaced (exponentOrEnd isNegative significand shift
      ⟨Literal.exponentText exponent ++ rest, place⟩) =
        (Literal.scaled? isNegative significand shift exponent).map (·, rest) := by
  rw [exponentOrEnd]
  cases exponent with
  | none =>
    rw [Literal.exponentText, Option.elim_none, List.nil_append,
      startsWith_of_delimited h _ (by decide), if_neg Bool.false_ne_true]
    exact unplaced_float _ _ _ _ _
  | some exponent =>
    rw [Literal.exponentText, Option.elim_some, (startsWith_exponentText exponent rest place).2,
      if_pos rfl]
    exact unplaced_withExponent _ _ _ exponent h place

theorem unplaced_withFraction (isNegative : Bool) (significand : ℕ) (shift : ℤ) (digits : Digits)
    (exponent : Option Exponent) (h : Delimited rest) (place : Place) :
    let fitted := Digits.fit significand digits.toList
    unplaced (withFraction isNegative significand shift
      ⟨Literal.fractionText (some digits) ++ (Literal.exponentText exponent ++ rest), place⟩) =
        (Literal.scaled? isNegative fitted.1 (shift - fitted.2) exponent).map (·, rest) := by
  intro fitted
  have hrest := noDigit_exponentText exponent h
  obtain ⟨place₁, hfitting⟩ :=
    exists_fittingDigits (place.after '.') digits.toList hrest significand
  obtain ⟨place₂, hskip⟩ := exists_skipDigits place₁ (digits.toList.drop fitted.2) hrest
  have hfirst : startsWithDigit ⟨Digits.text digits.toList ++
      (Literal.exponentText exponent ++ rest), place.after '.'⟩ = true :=
    startsWithDigit_char _ digits.first
  rw [withFraction]
  simp only [Literal.fractionText, Option.elim_some, List.cons_append, Cursor.next, hfirst, if_true,
    hfitting]
  rw [hskip]
  exact unplaced_exponentOrEnd _ _ _ exponent h place₂

theorem startsWith_fractionText (digits : Digits) (rest : List Char) (place : Place) :
    startsWith ⟨Literal.fractionText (some digits) ++ rest, place⟩ ['.'] = true :=
  rfl

theorem startsWith_fractionText_none (exponent : Option Exponent) (h : Delimited rest)
    (place : Place) :
    startsWith ⟨Literal.fractionText none ++ (Literal.exponentText exponent ++ rest), place⟩ ['.'] =
      false := by
  cases exponent with
  | none => exact startsWith_of_delimited h _ (by decide) place
  | some exponent => exact (startsWith_exponentText exponent rest place).1

/-- From after the digits in front of the point, if there is one. -/
theorem unplaced_fractionOrExponent (isNegative : Bool) (significand : ℕ) (shift : ℤ)
    (fraction : Option Digits) (exponent : Option Exponent) (h : Delimited rest) (place : Place) :
    let cursor : Cursor :=
      ⟨Literal.fractionText fraction ++ (Literal.exponentText exponent ++ rest), place⟩
    let fitted := Digits.fit significand (fraction.elim [] Digits.toList)
    unplaced (if startsWith cursor ['.'] then withFraction isNegative significand shift cursor
      else exponentOrEnd isNegative significand shift cursor) =
        (Literal.scaled? isNegative fitted.1 (shift - fitted.2) exponent).map (·, rest) := by
  intro cursor fitted
  cases fraction with
  | none =>
    rw [startsWith_fractionText_none exponent h, if_neg Bool.false_ne_true]
    refine (unplaced_exponentOrEnd isNegative significand shift exponent h place).trans ?_
    simp [fitted, Digits.fit]
  | some digits =>
    rw [startsWith_fractionText, if_pos rfl]
    exact unplaced_withFraction isNegative significand shift digits exponent h place

theorem unplaced_afterWhole (isNegative : Bool) (significand : ℕ) (fraction : Option Digits)
    (exponent : Option Exponent) (h : Delimited rest) (place : Place) :
    let fitted := Digits.fit significand (fraction.elim [] Digits.toList)
    unplaced (afterWhole isNegative significand
      ⟨Literal.fractionText fraction ++ (Literal.exponentText exponent ++ rest), place⟩) =
        (if fraction.isNone ∧ exponent.isNone then some (Literal.integer isNegative significand)
          else Literal.scaled? isNegative fitted.1 (0 - fitted.2) exponent).map (·, rest) := by
  intro fitted
  rw [afterWhole]
  rcases fraction with - | digits
  · rw [startsWith_fractionText_none exponent h, if_neg Bool.false_ne_true]
    rcases exponent with - | exponent
    · have hletter : startsWith ⟨rest, place⟩ ['e', 'E'] = false :=
        startsWith_of_delimited h _ (by decide) place
      simp only [Literal.fractionText, Literal.exponentText, Option.elim_none, List.nil_append,
        hletter, Option.isNone_none, and_self, if_true, Literal.integer, Bool.false_eq_true,
        if_false, Option.map_some]
      cases isNegative with
      | false => rfl
      | true =>
        have hhalf : wordBound = 2 * 0x8000000000000000 := rfl
        rw [if_pos rfl, if_pos rfl]
        by_cases hlarge : significand = 0 ∨ wordBound < 2 * significand
        · rw [if_pos hlarge, if_pos (hlarge.imp_right fun hword ↦ by omega)]
          rfl
        · rw [if_neg hlarge, if_neg fun hword ↦ hlarge (hword.imp_right fun hword ↦ by omega)]
          rfl
    · have hletter := (startsWith_exponentText exponent rest place).2
      simp only [Literal.fractionText, Literal.exponentText, Option.elim_none, Option.elim_some,
        List.nil_append, hletter, if_true]
      refine (unplaced_withExponent isNegative significand 0 exponent h place).trans ?_
      simp [fitted, Digits.fit]
  · rw [startsWith_fractionText, if_pos rfl]
    exact unplaced_withFraction isNegative significand 0 digits exponent h place

theorem digitCount_eq (digits : List (Fin 10)) (h : NoDigit rest) (place : Place) :
    digitCount ⟨Digits.text digits ++ rest, place⟩ = digits.length := by
  have hrest : rest.takeWhile isDigit = [] := by
    cases rest with
    | nil => rfl
    | cons c rest => simp [show isDigit c = false from h c rfl]
  rw [digitCount, List.takeWhile_append_of_pos, hrest, List.append_nil, Digits.text,
    List.length_map]
  rintro c hc
  obtain ⟨digit, -, rfl⟩ := List.mem_map.mp hc
  exact isDigit_char digit

/-- From after the digits that fit a word. -/
theorem unplaced_afterFitting (isNegative : Bool) (significand : ℕ) (dropped : List (Fin 10))
    (fraction : Option Digits) (exponent : Option Exponent) (h : Delimited rest) (place : Place) :
    let cursor : Cursor := ⟨Digits.text dropped ++
      (Literal.fractionText fraction ++ (Literal.exponentText exponent ++ rest)), place⟩
    let fitted := Digits.fit significand (fraction.elim [] Digits.toList)
    unplaced (if startsWithDigit cursor then
        if startsWith (skipDigits cursor) ['.'] then
          withFraction isNegative significand (digitCount cursor) (skipDigits cursor)
        else exponentOrEnd isNegative significand (digitCount cursor) (skipDigits cursor)
      else afterWhole isNegative significand cursor) =
        (if dropped.length = 0 ∧ fraction.isNone ∧ exponent.isNone then
            some (Literal.integer isNegative significand)
          else Literal.scaled? isNegative fitted.1 (dropped.length - fitted.2) exponent).map
            (·, rest) := by
  intro cursor fitted
  have hnodigit := noDigit_fractionText fraction (noDigit_exponentText exponent h)
  cases dropped with
  | nil =>
    have hdigit : startsWithDigit cursor = false := startsWithDigit_eq_false place hnodigit
    rw [hdigit, if_neg Bool.false_ne_true]
    refine (unplaced_afterWhole isNegative significand fraction exponent h place).trans ?_
    simp [fitted]
  | cons digit digits =>
    have hdigit : startsWithDigit cursor = true := startsWithDigit_char place digit
    have hcount : digitCount cursor = (digit :: digits).length :=
      digitCount_eq (digit :: digits) hnodigit place
    obtain ⟨place₁, hskip⟩ := exists_skipDigits place (digit :: digits) hnodigit
    rw [hdigit, if_pos rfl, hskip, hcount]
    refine (unplaced_fractionOrExponent isNegative significand _ fraction exponent h
      place₁).trans ?_
    simp [fitted]

/-- From the first digit of a numeral. -/
theorem unplaced_readUnsigned (literal : Literal) (h : Delimited rest) (place : Place) :
    unplaced (readUnsigned literal.isNegative
      ⟨Digits.text literal.whole.toList ++ (Literal.fractionText literal.fraction ++
        (Literal.exponentText literal.exponent ++ rest)), place⟩) =
          literal.number?.map (·, rest) := by
  obtain ⟨isNegative, ⟨first, others⟩, fraction, exponent, hzero⟩ := literal
  have hnodigit := noDigit_fractionText fraction (noDigit_exponentText exponent h)
  rw [readUnsigned, Literal.number?]
  simp only [Digits.toList, Digits.text, List.map_cons, List.cons_append, char_eq_zero_iff,
    isDigit_char, if_true, Cursor.next] at hzero ⊢
  -- After a zero no digit is looked for, but neither can one be written there.
  by_cases hfirst : first = 0
  · obtain rfl := hzero hfirst
    have hfit : Digits.fit 0 [0] = (0, 1) := by decide
    rw [if_pos hfirst]
    subst hfirst
    simp only [List.map_nil, List.nil_append, startsWithDigit_eq_false _ hnodigit, hfit]
    refine (unplaced_afterWhole isNegative 0 fraction exponent h _).trans ?_
    simp
  · rw [if_neg hfirst]
    obtain ⟨place₁, hfitting⟩ := exists_fittingDigits place (first :: others) hnodigit 0
    simp only [Digits.text, List.map_cons, List.cons_append] at hfitting
    rw [hfitting]
    refine (unplaced_afterFitting isNegative _ _ fraction exponent h place₁).trans ?_
    simp only [List.length_drop]
    rfl

theorem startsWith_char (digit : Fin 10) (rest : List Char) (place : Place) :
    startsWith ⟨Digits.char digit :: rest, place⟩ ['-'] = false ∧
      startsWith ⟨Digits.char digit :: rest, place⟩ ['0'] = decide (digit = 0) := by
  have hdigits : ∀ digit, ['-'].contains (Digits.char digit) = false ∧
      ['0'].contains (Digits.char digit) = decide (digit = 0) := by decide
  exact hdigits digit

/-- A numeral is read if the number it means is not too large. -/
theorem unplaced_read_literal (literal : Literal) (h : Delimited rest) (place : Place) :
    unplaced (read ⟨literal.text ++ rest, place⟩) = literal.number?.map (·, rest) := by
  have hunsigned := fun place ↦ unplaced_readUnsigned literal h place
  rw [read, Literal.text, List.append_assoc, List.append_assoc, List.append_assoc]
  cases hsign : literal.isNegative with
  | true =>
    rw [hsign] at hunsigned
    exact hunsigned _
  | false =>
    rw [hsign] at hunsigned
    have hminus : startsWith ⟨Digits.text literal.whole.toList ++
        (Literal.fractionText literal.fraction ++
          (Literal.exponentText literal.exponent ++ rest)), place⟩ ['-'] = false :=
      (startsWith_char literal.whole.first _ place).1
    simp only [Bool.false_eq_true, if_false, List.nil_append, hminus]
    exact hunsigned place

/-! ### Passing over a numeral -/

theorem left?_skipExponent (exponent : Exponent) (h : Delimited rest) (place : Place) :
    left? (skipExponent ⟨exponent.text ++ rest, place⟩) = some rest := by
  obtain ⟨isUpper, sign, digits⟩ := exponent
  obtain ⟨-, place₁, hsign⟩ :=
    exists_afterSign sign digits rest (place.after (if isUpper then 'E' else 'e'))
  obtain ⟨place₂, hskip⟩ := exists_skipDigits place₁ digits.toList (noDigit_of_delimited h)
  have hdigit : startsWithDigit ⟨Digits.text digits.toList ++ rest, place₁⟩ = true :=
    startsWithDigit_char place₁ digits.first
  rw [skipExponent]
  simp only [Exponent.text, List.cons_append, List.append_assoc, Cursor.next] at hsign ⊢
  rw [hsign, hdigit, if_pos rfl, hskip]
  rfl

theorem left?_exponentOrEnd (exponent : Option Exponent) (h : Delimited rest) (place : Place) :
    let cursor : Cursor := ⟨Literal.exponentText exponent ++ rest, place⟩
    left? (if startsWith cursor ['e', 'E'] then skipExponent cursor else .ok cursor) =
      some rest := by
  cases exponent with
  | none =>
    intro cursor
    have hletter : startsWith cursor ['e', 'E'] = false :=
      startsWith_of_delimited h _ (by decide) place
    rw [hletter, if_neg Bool.false_ne_true]
    rfl
  | some exponent =>
    intro cursor
    have hletter : startsWith cursor ['e', 'E'] = true :=
      (startsWith_exponentText exponent rest place).2
    rw [hletter, if_pos rfl]
    exact left?_skipExponent exponent h place

theorem exists_afterMinus (isNegative : Bool) (whole : Digits) (rest : List Char) (place : Place) :
    let cursor : Cursor :=
      ⟨(if isNegative then ['-'] else []) ++ (Digits.text whole.toList ++ rest), place⟩
    ∃ place', (if startsWith cursor ['-'] then cursor.next else cursor) =
      ⟨Digits.text whole.toList ++ rest, place'⟩ := by
  cases isNegative with
  | true => exact ⟨_, rfl⟩
  | false => exact ⟨place, if_neg (Bool.eq_false_iff.mp (startsWith_char whole.first _ place).1)⟩

/-- Past the digits in front of a point. -/
theorem exists_afterWhole (whole : Digits) (hzero : whole.first = 0 → whole.rest = [])
    (h : NoDigit rest) (place : Place) :
    let cursor : Cursor := ⟨Digits.text whole.toList ++ rest, place⟩
    ∃ place', (if startsWith cursor ['0'] then cursor.next else skipDigits cursor) =
      ⟨rest, place'⟩ := by
  obtain ⟨first, others⟩ := whole
  intro cursor
  have hfirst : startsWith cursor ['0'] = decide (first = 0) := (startsWith_char first _ place).2
  rw [hfirst]
  by_cases hwhole : first = 0
  · obtain rfl := hzero hwhole
    exact ⟨_, if_pos (decide_eq_true hwhole)⟩
  · obtain ⟨place', hskip⟩ := exists_skipDigits place (first :: others) h
    exact ⟨place', (if_neg (by simpa using hwhole)).trans hskip⟩

/-- A numeral is passed over whatever its size. -/
theorem left?_skip_literal (literal : Literal) (h : Delimited rest) (place : Place) :
    left? (skip ⟨literal.text ++ rest, place⟩) = some rest := by
  obtain ⟨isNegative, whole, fraction, exponent, hzero⟩ := literal
  have hexponent := noDigit_exponentText exponent h
  have hfraction := noDigit_fractionText fraction hexponent
  obtain ⟨place₁, hminus⟩ := exists_afterMinus isNegative whole
    (Literal.fractionText fraction ++ (Literal.exponentText exponent ++ rest)) place
  obtain ⟨place₂, hwhole⟩ := exists_afterWhole whole hzero hfraction place₁
  have hdigit : startsWithDigit ⟨Digits.text whole.toList ++
      (Literal.fractionText fraction ++ (Literal.exponentText exponent ++ rest)), place₁⟩ = true :=
    startsWithDigit_char place₁ whole.first
  rw [skip]
  simp only [Literal.text, List.append_assoc]
  rw [hminus, hdigit, if_pos rfl, hwhole, startsWithDigit_eq_false place₂ hfraction, Bool.and_false,
    if_neg Bool.false_ne_true]
  cases fraction with
  | none =>
    rw [startsWith_fractionText_none exponent h, if_neg Bool.false_ne_true]
    exact left?_exponentOrEnd exponent h place₂
  | some digits =>
    have hfirst : startsWithDigit
        ⟨Digits.text digits.toList ++ (Literal.exponentText exponent ++ rest), place₂.after '.'⟩ =
          true := startsWithDigit_char _ digits.first
    obtain ⟨place₃, hskip⟩ := exists_skipDigits (place₂.after '.') digits.toList hexponent
    rw [startsWith_fractionText, if_pos rfl]
    simp only [Literal.fractionText, Option.elim_some, List.cons_append, Cursor.next, hfirst,
      if_true, hskip]
    exact left?_exponentOrEnd exponent h place₃

end Parts

end Numeral

end TreeAudit.Json
