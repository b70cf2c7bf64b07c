import Mathlib.Algebra.Order.Field.Power
import Mathlib.Data.Rat.Cast.Order
import Mathlib.Tactic.FieldSimp
import Mathlib.Tactic.Ring
import TreeAudit.Numeric.Decimal

/-!
Reading the text of a decimal. A number is written with digits and a point, or with one digit
before the point and a power of ten behind the letter (`number?`). A point among digits divides
their number by a power of ten (`number?_point`), so each notation that a layout chooses reads as
the value of the decimal (`number?_layOut`).
-/

set_option autoImplicit false
set_option relaxedAutoImplicit false

namespace TreeAudit.Numeric.Decimal

/-- The number that a decimal stands for. -/
def value (d : Decimal) : ℚ := d.significand * 10 ^ d.exponent

/-! ### Reading a number -/

/-- The number of decimal digits, of which there must be one at least. -/
def natural? (text : List Char) : Option ℕ :=
  if !text.isEmpty && text.all Char.isDigit then some (Nat.ofDigitChars 10 text 0) else none

/-- Digits, with a minus sign before them or none. -/
def integer? : List Char → Option ℤ
  | '-' :: text => (natural? text).map fun (n : ℕ) ↦ -(n : ℤ)
  | text => (natural? text).map Int.ofNat

/-- Digits, with a point and further digits behind them or none. -/
def fixedPoint? (text : List Char) : Option ℚ :=
  match text.splitOn '.' with
  | [whole] => (natural? whole).map Nat.cast
  | [whole, fraction] => do
    let n ← natural? whole
    let m ← natural? fraction
    some (n + m / 10 ^ fraction.length)
  | _ => none

/-- The number that a text stands for, in positional or in exponent notation. -/
def number? (text : List Char) : Option ℚ :=
  match text.splitOn 'e' with
  | [mantissa] => fixedPoint? mantissa
  | [mantissa, exponent] => do
    let x ← fixedPoint? mantissa
    let k ← integer? exponent
    some (x * 10 ^ k)
  | _ => none

def IsDigits (text : List Char) : Prop := text ≠ [] ∧ ∀ c ∈ text, c.isDigit = true

section

variable {digits whole fraction : List Char}

namespace IsDigits

theorem notMem {c : Char} (h : IsDigits digits) (hc : c.isDigit = false) : c ∉ digits :=
  fun hmem ↦ by simp [h.2 c hmem] at hc

theorem take (h : IsDigits digits) {n : ℕ} (hn : n ≠ 0) : IsDigits (digits.take n) :=
  ⟨by simpa [List.take_eq_nil_iff, hn] using h.1, fun c hc ↦ h.2 c (List.mem_of_mem_take hc)⟩

theorem drop (h : IsDigits digits) {n : ℕ} (hn : n < digits.length) : IsDigits (digits.drop n) :=
  ⟨by simpa [List.drop_eq_nil_iff] using hn, fun c hc ↦ h.2 c (List.mem_of_mem_drop hc)⟩

theorem append_zeros (h : IsDigits digits) (n : ℕ) : IsDigits (digits ++ List.replicate n '0') :=
  ⟨List.append_ne_nil_of_left_ne_nil h.1 _, fun c hc ↦ (List.mem_append.mp hc).elim (h.2 c)
    fun hc ↦ List.eq_of_mem_replicate hc ▸ by decide⟩

theorem zeros_append (h : IsDigits digits) (n : ℕ) : IsDigits (List.replicate n '0' ++ digits) :=
  ⟨List.append_ne_nil_of_right_ne_nil _ h.1, fun c hc ↦ (List.mem_append.mp hc).elim
    (fun hc ↦ List.eq_of_mem_replicate hc ▸ by decide) (h.2 c)⟩

theorem natural? (h : IsDigits digits) :
    Decimal.natural? digits = some (Nat.ofDigitChars 10 digits 0) := by
  refine if_pos ?_
  rw [Bool.and_eq_true, Bool.not_eq_true', List.isEmpty_eq_false_iff, List.all_eq_true]
  exact h

theorem integer? (h : IsDigits digits) :
    Decimal.integer? digits = some (Nat.ofDigitChars 10 digits 0 : ℤ) := by
  have hminus : '-' ∉ digits := h.notMem (by decide)
  rw [Decimal.integer?]
  · rw [h.natural?]
    rfl
  · rintro rest rfl
    exact hminus List.mem_cons_self

theorem fixedPoint? (h : IsDigits digits) :
    Decimal.fixedPoint? digits = some (Nat.ofDigitChars 10 digits 0 : ℚ) := by
  rw [Decimal.fixedPoint?, List.splitOn_eq_singleton (h.notMem (by decide))]
  dsimp only
  rw [h.natural?]
  rfl

end IsDigits

theorem isDigits_toDigits (n : ℕ) : IsDigits (Nat.toDigits 10 n) :=
  ⟨Nat.toDigits_ne_nil, fun _ hc ↦ Nat.isDigit_of_mem_toDigits (by decide) le_rfl hc⟩

theorem isDigits_zero : IsDigits ['0'] := isDigits_toDigits 0

theorem integer?_sign (k : ℤ) :
    integer? ((if k < 0 then ['-'] else []) ++ Nat.toDigits 10 k.natAbs) = some k := by
  have hdigits := isDigits_toDigits k.natAbs
  have hvalue : Nat.ofDigitChars 10 (Nat.toDigits 10 k.natAbs) 0 = k.natAbs :=
    Nat.ofDigitChars_toDigits (by decide) le_rfl
  split_ifs with hneg
  · rw [List.singleton_append, integer?, hdigits.natural?, hvalue, Option.map_some]
    exact congrArg some (by omega)
  · rw [List.nil_append, hdigits.integer?, hvalue]
    exact congrArg some (by omega)

/-- A point divides the number of all digits by a power of ten. -/
theorem fixedPoint?_point (h : IsDigits whole) (h' : IsDigits fraction) :
    fixedPoint? (whole ++ '.' :: fraction) =
      some ((Nat.ofDigitChars 10 (whole ++ fraction) 0 : ℚ) / 10 ^ fraction.length) := by
  rw [fixedPoint?, List.splitOn_append_cons_self_of_not_mem (h.notMem (by decide)),
    List.splitOn_eq_singleton (h'.notMem (by decide))]
  have hall : Nat.ofDigitChars 10 (whole ++ fraction) 0 =
      10 ^ fraction.length * Nat.ofDigitChars 10 whole 0 + Nat.ofDigitChars 10 fraction 0 :=
    (Nat.ofDigitChars_append 0).trans Nat.ofDigitChars_eq_ofDigitChars_zero
  dsimp only
  rw [h.natural?, h'.natural?, hall]
  refine congrArg some ?_
  push_cast
  field_simp

theorem number?_point (h : IsDigits whole) (h' : IsDigits fraction) :
    number? (whole ++ '.' :: fraction) =
      some ((Nat.ofDigitChars 10 (whole ++ fraction) 0 : ℚ) / 10 ^ fraction.length) := by
  have hletter : 'e' ∉ whole := h.notMem (by decide)
  have hletter' : 'e' ∉ fraction := h'.notMem (by decide)
  rw [number?, List.splitOn_eq_singleton (by simp [hletter, hletter'])]
  exact fixedPoint?_point h h'

/-- Zeros and a point behind all digits. -/
theorem number?_padded (h : IsDigits digits) (n : ℕ) :
    number? (digits ++ List.replicate n '0' ++ '.' :: ['0']) =
      some ((Nat.ofDigitChars 10 digits 0 : ℚ) * 10 ^ n) := by
  have hzeros : Nat.ofDigitChars 10 (digits ++ List.replicate n '0' ++ ['0']) 0 =
      10 ^ (n + 1) * Nat.ofDigitChars 10 digits 0 := by
    rw [List.append_assoc, Nat.ofDigitChars_append, ← List.replicate_one, ← List.replicate_add,
      Nat.ofDigitChars_replicate_zero]
  rw [number?_point (h.append_zeros n) isDigits_zero, hzeros, List.length_singleton]
  refine congrArg some ?_
  push_cast
  ring

/-- A point among the digits. -/
theorem number?_inside (h : IsDigits digits) {n : ℕ} (hn : n ≠ 0) (hn' : n < digits.length) :
    number? (digits.take n ++ '.' :: digits.drop n) =
      some ((Nat.ofDigitChars 10 digits 0 : ℚ) / 10 ^ (digits.length - n)) := by
  rw [number?_point (h.take hn) (h.drop hn'), List.take_append_drop, List.length_drop]

/-- A point and zeros before all digits. -/
theorem number?_below (h : IsDigits digits) (n : ℕ) :
    number? (['0'] ++ '.' :: (List.replicate n '0' ++ digits)) =
      some ((Nat.ofDigitChars 10 digits 0 : ℚ) / 10 ^ (n + digits.length)) := by
  have hzeros : Nat.ofDigitChars 10 (['0'] ++ (List.replicate n '0' ++ digits)) 0 =
      Nat.ofDigitChars 10 digits 0 := by
    rw [← List.append_assoc, Nat.ofDigitChars_append, ← List.replicate_one, ← List.replicate_add,
      Nat.ofDigitChars_replicate_zero, mul_zero]
  rw [number?_point isDigits_zero (h.zeros_append n), hzeros, List.length_append,
    List.length_replicate]

/-- A point behind the first digit, if there are others. -/
theorem fixedPoint?_leading (h : IsDigits digits) :
    fixedPoint? (digits.take 1 ++ if (digits.drop 1).isEmpty then [] else '.' :: digits.drop 1) =
      some ((Nat.ofDigitChars 10 digits 0 : ℚ) / 10 ^ (digits.length - 1)) := by
  have hall : digits.take 1 ++ digits.drop 1 = digits := List.take_append_drop 1 digits
  rw [← List.length_drop]
  split_ifs with hempty
  · rw [List.isEmpty_iff] at hempty
    rw [hempty, List.append_nil] at hall
    rw [List.append_nil, hall, h.fixedPoint?, hempty, List.length_nil, pow_zero, div_one]
  · rw [List.isEmpty_iff, List.drop_eq_nil_iff, not_le] at hempty
    rw [fixedPoint?_point (h.take one_ne_zero) (h.drop hempty), hall]

/-- The first digit, the others behind a point, and a power of ten. -/
theorem number?_leading (h : IsDigits digits) (k : ℤ) :
    number? ((digits.take 1 ++ if (digits.drop 1).isEmpty then [] else '.' :: digits.drop 1) ++
        'e' :: ((if k < 0 then ['-'] else []) ++ Nat.toDigits 10 k.natAbs)) =
      some ((Nat.ofDigitChars 10 digits 0 : ℚ) / 10 ^ (digits.length - 1) * 10 ^ k) := by
  have hletter : 'e' ∉ digits := h.notMem (by decide)
  have hmantissa : 'e' ∉ digits.take 1 ++
      if (digits.drop 1).isEmpty then [] else '.' :: digits.drop 1 := by
    have hfirst : 'e' ∉ digits.take 1 := fun hmem ↦ hletter (List.mem_of_mem_take hmem)
    have hrest : 'e' ∉ digits.tail := fun hmem ↦ hletter (List.mem_of_mem_tail hmem)
    split_ifs <;> simp [hfirst, hrest]
  have hexponent : 'e' ∉ (if k < 0 then ['-'] else []) ++ Nat.toDigits 10 k.natAbs := by
    have hpower : 'e' ∉ Nat.toDigits 10 k.natAbs := (isDigits_toDigits _).notMem (by decide)
    split_ifs <;> simp [hpower]
  rw [number?, List.splitOn_append_cons_self_of_not_mem hmantissa,
    List.splitOn_eq_singleton hexponent]
  dsimp only
  rw [fixedPoint?_leading h, integer?_sign]
  rfl

end

/-! ### Texts of decimals -/

theorem toList_pushn (text : String) (c : Char) (n : ℕ) :
    (text.pushn c n).toList = text.toList ++ List.replicate n c := by
  rw [String.pushn_eq_repeat_push]
  induction n with
  | zero => simp [Nat.repeat]
  | succ n ih => simp [Nat.repeat, ih, List.replicate_succ']

theorem div_eq_value {d : Decimal} {n : ℕ} (hn : (n : ℤ) = -d.exponent) :
    (d.significand : ℚ) / 10 ^ n = d.value := by
  rw [value, ← neg_neg d.exponent, ← hn, zpow_neg, zpow_natCast, div_eq_mul_inv]

/-- The text of a decimal, in a layout that puts no sign before positive exponents, reads as the
value of the decimal. -/
theorem number?_layOut {layout : Layout} (hsign : layout.signOfPositiveExponent = "")
    (d : Decimal) : number? (d.layOut layout).toList = some d.value := by
  obtain ⟨digits, hdigits⟩ : ∃ digits, digits = Nat.toDigits 10 d.significand := ⟨_, rfl⟩
  have hlist : (toString d.significand).toList = digits := by simp [hdigits]
  have hlength : (toString d.significand).length = digits.length := by
    rw [← String.length_toList, hlist]
  have hshape : IsDigits digits := hdigits ▸ isDigits_toDigits _
  have hlong : 0 < digits.length := List.length_pos_iff.mpr hshape.1
  have hvalue : Nat.ofDigitChars 10 digits 0 = d.significand :=
    hdigits ▸ Nat.ofDigitChars_toDigits (by decide) le_rfl
  obtain ⟨point, hpoint⟩ : ∃ point : ℤ, point = digits.length + d.exponent := ⟨_, rfl⟩
  simp only [layOut, hlength, hlist, ← hpoint]
  by_cases hzero : d.significand = 0
  · have htext : "0.0".toList = ['0'] ++ '.' :: (List.replicate 0 '0' ++ ['0']) := by decide
    rw [if_pos hzero, htext, number?_below isDigits_zero, value, hzero]
    simp [Nat.ofDigitChars]
  rw [if_neg hzero]
  by_cases hwhole : 0 ≤ d.exponent ∧ point ≤ 16
  · obtain ⟨n, hn⟩ := Int.eq_ofNat_of_zero_le hwhole.1
    have htext : ((toString d.significand).pushn '0' d.exponent.toNat ++ ".0").toList =
        digits ++ List.replicate n '0' ++ '.' :: ['0'] := by
      rw [String.toList_append, toList_pushn, hlist, hn]
      rfl
    rw [if_pos hwhole, htext, number?_padded hshape, hvalue, value, hn, zpow_natCast]
  rw [if_neg hwhole]
  by_cases hinside : 0 < point ∧ point ≤ 16
  · have htext : (String.ofList (digits.take point.toNat) ++ "." ++
        String.ofList (digits.drop point.toNat)).toList =
        digits.take point.toNat ++ '.' :: digits.drop point.toNat := by
      simp
    rw [if_pos hinside, htext, number?_inside hshape (by omega) (by omega), hvalue,
      div_eq_value (by omega)]
  rw [if_neg hinside]
  by_cases hbelow : -5 < point ∧ point ≤ 0
  · have htext : ("0.".pushn '0' (-point).toNat ++ toString d.significand).toList =
        ['0'] ++ '.' :: (List.replicate (-point).toNat '0' ++ digits) := by
      rw [String.toList_append, toList_pushn, hlist]
      rfl
    rw [if_pos hbelow, htext, number?_below hshape, hvalue, div_eq_value (by omega)]
  rw [if_neg hbelow]
  have htext : (String.ofList (digits.take 1) ++
      (if (digits.drop 1).isEmpty then "" else "." ++ String.ofList (digits.drop 1)) ++ "e" ++
      (if point - 1 < 0 then "-" else layout.signOfPositiveExponent) ++
      toString (point - 1).natAbs).toList =
      (digits.take 1 ++ if (digits.drop 1).isEmpty then [] else '.' :: digits.drop 1) ++
        'e' :: ((if point - 1 < 0 then ['-'] else []) ++ Nat.toDigits 10 (point - 1).natAbs) := by
    rw [hsign]
    split_ifs <;> simp
  have hpower : point - 1 = (digits.length - 1 : ℕ) + d.exponent := by omega
  rw [htext, number?_leading hshape, hvalue, value, hpower, zpow_add₀ (by norm_num), zpow_natCast]
  refine congrArg some ?_
  field_simp

end TreeAudit.Numeric.Decimal
