import Mathlib.Tactic.NormNum
import TreeAudit.Proofs.Numeric.Doubles
import TreeAudit.Proofs.Numeric.Notation

/-!
The shortest text of a number of the double format reads as this number.

Every decimal that is found on a grid lies in the interval around the number
(`firstOnGrid_holds`) and is rounded to it (`isNearest_of_holds`). The search does find one: the
first digit is not below the place that the magnitude tells (`magnitude_spec`), so the grid sixteen
places further down is finer than the distance to the next number (`seventeen_digits`), and on such
a grid the nearest point lies in the interval (`isSome_onGrid?`).
-/

set_option autoImplicit false
set_option relaxedAutoImplicit false

namespace TreeAudit.Numeric.Decimal

open Binary64 Rounding

theorem ten_zpow (k : ℤ) : (10 : ℚ) ^ k = (10 ^ k.toNat : ℕ) / (10 ^ (-k).toNat : ℕ) := by
  obtain ⟨n, rfl | rfl⟩ := k.eq_nat_or_neg <;> simp

theorem isBelowPower_iff {num den : ℕ} (hden : 0 < den) (k : ℤ) :
    isBelowPower num den k = true ↔ (num : ℚ) / den < 10 ^ k := by
  have hden' : (0 : ℚ) < den := by exact_mod_cast hden
  have hpower : (0 : ℚ) < (10 ^ (-k).toNat : ℕ) := by positivity
  rw [isBelowPower, decide_eq_true_iff, ten_zpow, div_lt_div_iff₀ hden' hpower,
    mul_comm (_ : ℚ) den]
  exact_mod_cast Iff.rfl

/-! ### The interval of a value -/

section

variable {s : ℕ} {e : ℤ}

theorem Interval.holds_iff (bounds : Interval) (e : ℤ) (n : ℕ) (k : ℤ) :
    bounds.holds e n k = true ↔
      if bounds.closed then
        bounds.low * 2 ^ (e - 2) ≤ (n : ℚ) * 10 ^ k ∧ (n : ℚ) * 10 ^ k ≤ bounds.high * 2 ^ (e - 2)
      else
        bounds.low * 2 ^ (e - 2) < (n : ℚ) * 10 ^ k ∧
          (n : ℚ) * 10 ^ k < bounds.high * 2 ^ (e - 2) := by
  have hden : 0 < Nat.pow 10 (-k).toNat := Nat.pow_pos (by decide)
  have hvalue : (n : ℚ) * 10 ^ k = (n * Nat.pow 10 k.toNat : ℕ) / (Nat.pow 10 (-k).toNat : ℕ) := by
    rw [ten_zpow, Nat.cast_mul, mul_div_assoc]
    rfl
  obtain ⟨hbelow, habove⟩ := forall_and.mp fun bound ↦
    mul_scaled_lt_iff (n * Nat.pow 10 k.toNat) hden bound (e - 2)
  obtain ⟨hle, hge⟩ := forall_and.mp fun bound ↦
    mul_scaled_le_iff (n * Nat.pow 10 k.toNat) hden bound (e - 2)
  rw [Interval.holds, hvalue]
  dsimp only
  split_ifs
  · rw [Bool.and_eq_true, decide_eq_true_iff, decide_eq_true_iff, hle, hge]
  · rw [Bool.and_eq_true, decide_eq_true_iff, decide_eq_true_iff, hbelow, habove]

theorem interval_low (hs : s ≠ 0) :
    ((interval s e).low : ℚ) * 2 ^ (e - 2) = (s - halfGapBelow s e) * 2 ^ e := by
  rw [interval, halfGapBelow, zpow_sub₀ two_ne_zero, Nat.one_shiftLeft]
  dsimp only
  split_ifs
  all_goals
    rw [Nat.cast_sub (by omega)]
    push_cast
    ring

theorem interval_high : ((interval s e).high : ℚ) * 2 ^ (e - 2) = (s + 1 / 2) * 2 ^ e := by
  rw [interval, zpow_sub₀ two_ne_zero]
  push_cast
  ring

/-- A decimal in the interval of a value is rounded to this value. -/
theorem isNearest_of_holds {n : ℕ} {k : ℤ} (hs : s ≠ 0) (hdouble : (finite s e).IsDouble)
    (h : (interval s e).holds e n k = true) : IsNearest (n * 10 ^ k) s e := by
  rw [Interval.holds_iff, interval_low hs, interval_high] at h
  split_ifs at h with heven
  · refine isNearest_of_between hdouble h.1 h.2 fun hodd ↦ ?_
    simp [interval, hodd] at heven
  · exact isNearest_of_between hdouble h.1.le h.2.le fun _ ↦ h

theorem holds_of_between {n : ℕ} {k : ℤ} (hs : s ≠ 0)
    (hlow : (s - halfGapBelow s e) * 2 ^ e < n * 10 ^ k)
    (hhigh : n * 10 ^ k < ((s : ℚ) + 1 / 2) * 2 ^ e) :
    (interval s e).holds e n k = true := by
  rw [Interval.holds_iff, interval_low hs, interval_high]
  split_ifs
  · exact ⟨hlow.le, hhigh.le⟩
  · exact ⟨hlow, hhigh⟩

/-! ### The grid of seventeen digits -/

theorem onGrid?_holds {round : ℕ → ℕ → ℕ} {k : ℤ} {d : Decimal} (h : onGrid? round s e k = some d) :
    (interval s e).holds e d.significand d.exponent = true := by
  simp only [onGrid?] at h
  split_ifs at h <;> cases h <;> assumption

/-- On a grid finer than the distance to the next value, the point nearest to the value is rounded
to it. -/
theorem isSome_onGrid? {k : ℤ} (hs : s ≠ 0) (hgrid : 10 ^ k / 2 < halfGapBelow s e * 2 ^ e) :
    (onGrid? nearestEven s e k).isSome := by
  obtain ⟨num, hnum⟩ : ∃ num, num = (scaled s e).1 * Nat.pow 10 (-k).toNat := ⟨_, rfl⟩
  obtain ⟨den, hden⟩ : ∃ den, den = (scaled s e).2 * Nat.pow 10 k.toNat := ⟨_, rfl⟩
  have hquotient : (num : ℚ) / den * 10 ^ k = s * 2 ^ e := by
    rw [hnum, hden, ← scaled_ratio, ten_zpow]
    change (((scaled s e).1 * 10 ^ (-k).toNat : ℕ) : ℚ) /
      ((scaled s e).2 * 10 ^ k.toNat : ℕ) * _ = _
    have hpos : (0 : ℚ) < (scaled s e).2 := by exact_mod_cast scaled_snd_pos s e
    push_cast
    field_simp
  have hunit : (0 : ℚ) < 10 ^ k := by positivity
  have hround := abs_le.mp (abs_nearestEven_sub_le num
    (hden ▸ Nat.mul_pos (scaled_snd_pos s e) (Nat.pow_pos (by decide))))
  have hholds : (interval s e).holds e (nearestEven num den) k = true := by
    have hgap := mul_le_mul_of_nonneg_right (halfGapBelow_le s e) (by positivity : (0 : ℚ) ≤ 2 ^ e)
    have hlow := mul_le_mul_of_nonneg_right hround.1 hunit.le
    have hhigh := mul_le_mul_of_nonneg_right hround.2 hunit.le
    rw [sub_mul, hquotient] at hlow hhigh
    exact holds_of_between hs (by linarith) (by linarith)
  simp only [onGrid?, ← hnum, ← hden, hholds, if_true, Option.isSome_some]

theorem firstOnGrid_holds {round : ℕ → ℕ → ℕ} {grids : ℕ} {k : ℤ}
    (h : ∃ i < grids, (onGrid? round s e (k - i)).isSome) :
    (interval s e).holds e (firstOnGrid round s e k grids).significand
      (firstOnGrid round s e k grids).exponent = true := by
  induction grids generalizing k with
  | zero =>
    obtain ⟨i, hi, -⟩ := h
    exact absurd hi (Nat.not_lt_zero i)
  | succ grids ih =>
    rw [firstOnGrid]
    cases hfirst : onGrid? round s e k with
    | some d => exact onGrid?_holds hfirst
    | none =>
      refine ih ?_
      obtain ⟨i, hi, hsome⟩ := h
      obtain _ | i := i
      · rw [Nat.cast_zero, sub_zero, hfirst] at hsome
        cases hsome
      · refine ⟨i, Nat.lt_of_succ_lt_succ hi, ?_⟩
        rwa [sub_sub, add_comm 1, ← Nat.cast_succ]

theorem ten_pow_le_two_pow : ∀ n < 1024, 10 ^ (n * 30103 / 100000) ≤ 2 ^ n := by decide +kernel

theorem two_pow_le_ten_pow : ∀ n < 1075, 2 ^ n ≤ 10 ^ ((n * 30103 + 99999) / 100000) := by
  decide +kernel

/-- The ratio is just above the decimal logarithm of two, so near that the exponents of the format
do not show the difference. -/
theorem ten_zpow_le_two_zpow {k : ℤ} (hlow : -1074 ≤ k) (hhigh : k ≤ 1023) :
    (10 : ℚ) ^ (k * 30103 / 100000) ≤ 2 ^ k := by
  obtain ⟨n, rfl | rfl⟩ := k.eq_nat_or_neg
  · have hpower := ten_pow_le_two_pow n (by omega)
    rw [show (n : ℤ) * 30103 / 100000 = (n * 30103 / 100000 : ℕ) by omega, zpow_natCast,
      zpow_natCast]
    exact_mod_cast hpower
  · have hpower := two_pow_le_ten_pow n (by omega)
    rw [show -(n : ℤ) * 30103 / 100000 = -((n * 30103 + 99999) / 100000 : ℕ) by omega, zpow_neg,
      zpow_neg, zpow_natCast, zpow_natCast]
    exact inv_anti₀ (by positivity) (by exact_mod_cast hpower)

/-- The first digit of a value is not below the place that its magnitude tells. -/
theorem magnitude_spec (hs : s ≠ 0) (hdouble : (finite s e).IsDouble) :
    (10 : ℚ) ^ (magnitude s e - 1) ≤ s * 2 ^ e := by
  obtain ⟨low, hlow⟩ : ∃ low : ℤ, low = (s.log2 + e) * 30103 / 100000 + 1 := ⟨_, rfl⟩
  simp only [magnitude, ← hlow]
  split_ifs with hbelow
  · obtain ⟨hlength, hsmallest, hlargest, -⟩ := hdouble
    have hbits : s.log2 < 53 := (Nat.log2_lt hs).mpr hlength
    rw [hlow, add_sub_cancel_right]
    calc (10 : ℚ) ^ ((s.log2 + e) * 30103 / 100000) ≤ 2 ^ (s.log2 + e) :=
          ten_zpow_le_two_zpow (by rw [minExponent] at hsmallest; omega)
            (by rw [maxExponent] at hlargest; omega)
      _ = 2 ^ s.log2 * 2 ^ e := by rw [zpow_add₀ two_ne_zero, zpow_natCast]
      _ ≤ s * 2 ^ e := by
          gcongr
          exact_mod_cast Nat.log2_self_le hs
  · rw [isBelowPower_iff (scaled_snd_pos s e), scaled_ratio, not_lt] at hbelow
    rwa [add_sub_cancel_right]

/-- The grid sixteen places below the first digit is finer than the distance to the next value. -/
theorem seventeen_digits (hs : s ≠ 0) (hdouble : (finite s e).IsDouble) :
    (10 : ℚ) ^ (magnitude s e - 17) / 2 < halfGapBelow s e * 2 ^ e := by
  have hmagnitude := magnitude_spec hs hdouble
  have hunit : (0 : ℚ) < 2 ^ e := by positivity
  have hgap : (s : ℚ) / 10 ^ 16 / 2 < halfGapBelow s e := by
    rw [halfGapBelow]
    split_ifs with hpower
    · rw [hpower.1]
      norm_num
    · have hlength : (s : ℚ) < 2 ^ 53 := by exact_mod_cast hdouble.1
      linarith
  calc (10 : ℚ) ^ (magnitude s e - 17) / 2 = 10 ^ (magnitude s e - 1) / 10 ^ 16 / 2 := by
        rw [show magnitude s e - 17 = magnitude s e - 1 - (16 : ℕ) by omega,
          zpow_sub₀ (by norm_num), zpow_natCast]
    _ ≤ s * 2 ^ e / 10 ^ 16 / 2 := by gcongr
    _ = s / 10 ^ 16 / 2 * 2 ^ e := by ring
    _ < halfGapBelow s e * 2 ^ e := by gcongr

/-- The shortest decimal of a value is rounded to this value. -/
theorem isNearest_shortest (hdouble : (finite s e).IsDouble) :
    IsNearest (shortest nearestEven s e).value s e := by
  by_cases hs : s = 0
  · have hzero : (shortest nearestEven s e).value = (s : ℚ) * 2 ^ e := by
      simp [shortest, value, hs]
    rw [hzero]
    exact isNearest_self s e
  · rw [shortest, if_neg hs]
    refine isNearest_of_holds hs hdouble (firstOnGrid_holds ⟨17, by decide, ?_⟩)
    exact isSome_onGrid? hs (seventeen_digits hs hdouble)

end

/-- A text reads as a number of the double format if this is the one nearest to what the text stands
for. -/
def ReadsAs (text : String) : Binary64 → Prop
  | finite s e => ∃ x, number? text.toList = some x ∧ IsNearest x s e
  | infinite => text = "inf"
  | nan => text = "NaN"

theorem readsAs_shortestText {layout : Layout} (hsign : layout.signOfPositiveExponent = "")
    (hinfinite : layout.infinite = "inf") (hnan : layout.nan = "NaN") {x : Binary64}
    (hdouble : x.IsDouble) : ReadsAs (shortestText layout x) x := by
  cases x with
  | finite s e => exact ⟨_, number?_layOut hsign _, isNearest_shortest hdouble⟩
  | infinite => exact hinfinite
  | nan => exact hnan

end TreeAudit.Numeric.Decimal
