import Mathlib.Algebra.Order.Field.Power
import Mathlib.Data.Rat.Cast.Order
import Mathlib.Tactic.FieldSimp
import Mathlib.Tactic.GCongr
import Mathlib.Tactic.Linarith
import Mathlib.Tactic.Positivity
import Mathlib.Tactic.Ring
import TreeAudit.Numeric.Binary64

/-!
The values of the double format, and which of them a rational number is nearest to.

A rounded quotient is a value of the format (`isDouble_ofRatio`): the exponent is chosen such that
the quotient has 53 bits before the point (`exponentOf_spec`), and the nearest whole number has as
many unless it is the next power of two. Two values of the format differ by at least the unit of
the last bit, and by half of it below a power of two (`add_le_of_lt`, `le_sub_of_lt`,
`le_sub_half_of_exponent_lt`). So a rational number closer than half of this distance is nearest to
the value (`isNearest_of_between`).
-/

set_option autoImplicit false
set_option relaxedAutoImplicit false

namespace TreeAudit

/-! ### Rounded quotients -/

namespace Numeric.Rounding

variable {num den : ℕ}

theorem nearestEven_le {bound : ℕ} (h : num < bound * den) : nearestEven num den ≤ bound := by
  have hbelow : num / den < bound := Nat.div_lt_of_lt_mul (by rwa [Nat.mul_comm])
  rw [nearestEven]
  split_ifs <;> omega

theorem le_nearestEven {bound : ℕ} (hden : 0 < den) (h : bound * den ≤ num) :
    bound ≤ nearestEven num den := by
  have hbelow : bound ≤ num / den := (Nat.le_div_iff_mul_le hden).mpr h
  rw [nearestEven]
  split_ifs <;> omega

theorem abs_nearestEven_sub_le (num : ℕ) {den : ℕ} (hden : 0 < den) :
    |(nearestEven num den : ℚ) - num / den| ≤ 1 / 2 := by
  have hden' : (0 : ℚ) < den := by exact_mod_cast hden
  have hsplit : (num : ℚ) = den * (num / den : ℕ) + (num % den : ℕ) := by
    exact_mod_cast (Nat.div_add_mod num den).symm
  have hquotient : (num : ℚ) / den = (num / den : ℕ) + (num % den : ℕ) / den := by
    rw [hsplit]
    field_simp
  have hrest : (num % den : ℕ) ≤ (den : ℚ) := by exact_mod_cast (Nat.mod_lt num hden).le
  rw [hquotient, nearestEven]
  split_ifs with hup
  · have hhalf : (den : ℚ) ≤ 2 * (num % den : ℕ) := by exact_mod_cast by omega
    have hlow : 1 / 2 ≤ ((num % den : ℕ) : ℚ) / den := by rw [le_div_iff₀ hden']; linarith
    have hhigh : ((num % den : ℕ) : ℚ) / den ≤ 1 := (div_le_one₀ hden').mpr hrest
    rw [abs_le]
    push_cast
    constructor <;> linarith
  · have hhalf : 2 * (num % den : ℕ) ≤ (den : ℚ) := by exact_mod_cast by omega
    have hlow : 0 ≤ ((num % den : ℕ) : ℚ) / den := by positivity
    have hhigh : ((num % den : ℕ) : ℚ) / den ≤ 1 / 2 := by rw [div_le_iff₀ hden']; linarith
    rw [abs_le]
    constructor <;> linarith

end Numeric.Rounding

namespace Binary64

open Numeric.Rounding

/-! ### Values of the format -/

theorem scaled_snd_pos (n : ℕ) (e : ℤ) : 0 < (scaled n e).2 := by
  rw [scaled]
  split_ifs
  · exact Nat.one_pos
  · rw [Nat.one_shiftLeft]
    exact Nat.two_pow_pos _

theorem scaled_fst_pos {n : ℕ} (hn : 0 < n) (e : ℤ) : 0 < (scaled n e).1 := by
  rw [scaled]
  split_ifs
  · rw [Nat.shiftLeft_eq]
    exact Nat.mul_pos hn (Nat.two_pow_pos _)
  · exact hn

theorem scaled_ratio (n : ℕ) (e : ℤ) : ((scaled n e).1 : ℚ) / (scaled n e).2 = n * 2 ^ e := by
  rw [scaled]
  split_ifs with he
  · lift e to ℕ using he
    simp [Nat.shiftLeft_eq]
  · obtain ⟨k, rfl⟩ : ∃ k : ℕ, e = -k := ⟨(-e).toNat, by omega⟩
    simp [Nat.shiftLeft_eq, div_eq_mul_inv]

/-- The values of the double format. A finite one has 53 bits, the first of which is set unless the
exponent is the smallest. -/
def IsDouble : Binary64 → Prop
  | finite s e =>
    s < 2 ^ 53 ∧ minExponent ≤ e ∧ e ≤ maxExponent ∧ (2 ^ 52 ≤ s ∨ e = minExponent)
  | infinite => True
  | nan => True

/-- Comparing a quotient with a multiple of a power of two, in whole numbers. -/
theorem mul_scaled_lt_iff (num : ℕ) {den : ℕ} (hden : 0 < den) (bound : ℕ) (e : ℤ) :
    (num * (scaled 1 e).2 < bound * (den * (scaled 1 e).1) ↔ (num : ℚ) / den < bound * 2 ^ e) ∧
      (bound * (den * (scaled 1 e).1) < num * (scaled 1 e).2 ↔
        bound * 2 ^ e < (num : ℚ) / den) := by
  have hden' : (0 : ℚ) < den := by exact_mod_cast hden
  have hunit : (0 : ℚ) < (scaled 1 e).2 := by exact_mod_cast scaled_snd_pos 1 e
  have hpower : ((scaled 1 e).1 : ℚ) / (scaled 1 e).2 = 2 ^ e := by
    rw [scaled_ratio, Nat.cast_one, one_mul]
  rw [← hpower, ← mul_div_assoc, div_lt_div_iff₀ hden' hunit, div_lt_div_iff₀ hunit hden',
    mul_assoc, mul_comm _ (den : ℚ)]
  exact ⟨by exact_mod_cast Iff.rfl, by exact_mod_cast Iff.rfl⟩

theorem mul_scaled_le_iff (num : ℕ) {den : ℕ} (hden : 0 < den) (bound : ℕ) (e : ℤ) :
    (num * (scaled 1 e).2 ≤ bound * (den * (scaled 1 e).1) ↔ (num : ℚ) / den ≤ bound * 2 ^ e) ∧
      (bound * (den * (scaled 1 e).1) ≤ num * (scaled 1 e).2 ↔
        bound * 2 ^ e ≤ (num : ℚ) / den) := by
  obtain ⟨hbelow, habove⟩ := mul_scaled_lt_iff num hden bound e
  exact ⟨by simpa only [not_lt] using not_congr habove,
    by simpa only [not_lt] using not_congr hbelow⟩

/-- The lengths of two numbers in bits tell their quotient up to a factor of four. -/
theorem quotient_bounds {num den : ℕ} (hnum : num ≠ 0) (hden : den ≠ 0) :
    (2 : ℚ) ^ ((num.log2 : ℤ) - den.log2 - 1) ≤ (num : ℚ) / den ∧
      (num : ℚ) / den < 2 ^ ((num.log2 : ℤ) - den.log2 + 1) := by
  have hden' : (0 : ℚ) < den := by exact_mod_cast Nat.pos_of_ne_zero hden
  have hlowNum : (2 : ℚ) ^ (num.log2 : ℤ) ≤ num := by exact_mod_cast Nat.log2_self_le hnum
  have hhighNum : (num : ℚ) < 2 ^ ((num.log2 : ℤ) + 1) := by exact_mod_cast Nat.lt_log2_self
  have hlowDen : (2 : ℚ) ^ (den.log2 : ℤ) ≤ den := by exact_mod_cast Nat.log2_self_le hden
  have hhighDen : (den : ℚ) < 2 ^ ((den.log2 : ℤ) + 1) := by exact_mod_cast Nat.lt_log2_self
  constructor
  · rw [le_div_iff₀ hden']
    calc (2 : ℚ) ^ ((num.log2 : ℤ) - den.log2 - 1) * den
        ≤ 2 ^ ((num.log2 : ℤ) - den.log2 - 1) * 2 ^ ((den.log2 : ℤ) + 1) := by gcongr
      _ = 2 ^ (num.log2 : ℤ) := by
        rw [← zpow_add₀ two_ne_zero]
        congr 1
        ring
      _ ≤ num := hlowNum
  · rw [div_lt_iff₀ hden']
    calc (num : ℚ) < 2 ^ ((num.log2 : ℤ) + 1) := hhighNum
      _ = 2 ^ ((num.log2 : ℤ) - den.log2 + 1) * 2 ^ (den.log2 : ℤ) := by
        rw [← zpow_add₀ two_ne_zero]
        congr 1
        ring
      _ ≤ 2 ^ ((num.log2 : ℤ) - den.log2 + 1) * den := by gcongr

/-- The exponent of a quotient is the one at which it has 53 bits before the point, unless it has
fewer at the smallest exponent. -/
theorem exponentOf_spec {num den : ℕ} (hnum : num ≠ 0) (hden : den ≠ 0) :
    minExponent ≤ exponentOf num den ∧
      (num : ℚ) / den < (2 ^ 53 : ℕ) * 2 ^ exponentOf num den ∧
      ((2 ^ 52 : ℕ) * 2 ^ exponentOf num den ≤ (num : ℚ) / den ∨
        exponentOf num den = minExponent) := by
  obtain ⟨hlow, hhigh⟩ := quotient_bounds hnum hden
  have hpower (k : ℕ) (e e' : ℤ) (he : k + e = e') : ((2 ^ k : ℕ) : ℚ) * 2 ^ e = 2 ^ e' := by
    rw [← he, zpow_add₀ two_ne_zero, zpow_natCast, Nat.cast_pow, Nat.cast_ofNat]
  obtain ⟨low, hlength⟩ : ∃ low : ℤ, low = num.log2 - den.log2 - 53 := ⟨_, rfl⟩
  have hcompare := (mul_scaled_lt_iff num (Nat.pos_of_ne_zero hden) (2 ^ 53) low).1
  rw [Nat.mul_comm (2 ^ 53), ← Nat.shiftLeft_eq] at hcompare
  -- the exponent at which the quotient has 53 bits, before it is held above the smallest one
  obtain ⟨e, he, hbelow, habove⟩ : ∃ e, exponentOf num den = max e minExponent ∧
      (num : ℚ) / den < (2 ^ 53 : ℕ) * 2 ^ e ∧ (2 ^ 52 : ℕ) * 2 ^ e ≤ (num : ℚ) / den := by
    have heq : exponentOf num den = max
        (if num * (scaled 1 low).2 < (den * (scaled 1 low).1) <<< 53 then low else low + 1)
        minExponent := by
      simp only [exponentOf, ← hlength]
    refine ⟨_, heq, ?_⟩
    split_ifs with hshort
    · exact ⟨hcompare.mp hshort, (hpower 52 low _ (by omega)).trans_le hlow⟩
    · refine ⟨hhigh.trans_eq (hpower 53 (low + 1) _ (by omega)).symm, ?_⟩
      rw [hpower 52 (low + 1) (53 + low) (by omega), ← hpower 53 low (53 + low) rfl]
      exact not_lt.mp (hcompare.not.mp hshort)
  rw [he]
  refine ⟨le_max_right _ _, hbelow.trans_le ?_, ?_⟩
  · exact mul_le_mul_of_nonneg_left
      (zpow_le_zpow_right₀ one_le_two (le_max_left e minExponent)) (Nat.cast_nonneg _)
  · obtain hmax | hmax := max_choice e minExponent
    · exact .inl (by rwa [hmax])
    · exact .inr hmax

/-- Rounding a quotient gives a value of the format. -/
theorem isDouble_ofRatio (num den : ℕ) : (ofRatio num den).IsDouble := by
  by_cases hden : den = 0
  · rw [ofRatio, if_pos hden]
    split_ifs <;> trivial
  by_cases hnum : num = 0
  · rw [ofRatio, if_neg hden, if_pos hnum]
    exact ⟨by decide, le_rfl, by decide, .inr rfl⟩
  have hden' : 0 < den := Nat.pos_of_ne_zero hden
  obtain ⟨hsmallest, hbelow, habove⟩ := exponentOf_spec hnum hden
  obtain ⟨e, he⟩ : ∃ e, e = exponentOf num den := ⟨_, rfl⟩
  obtain ⟨s, hs⟩ : ∃ s, s = nearestEven (num * (scaled 1 e).2) (den * (scaled 1 e).1) := ⟨_, rfl⟩
  rw [← he] at hsmallest hbelow habove
  have hlong : s ≤ 2 ^ 53 := hs ▸
    nearestEven_le ((mul_scaled_lt_iff _ hden' (2 ^ 53) e).1.mpr hbelow)
  have hshort : 2 ^ 52 ≤ s ∨ e = minExponent := habove.imp_left fun habove ↦ hs ▸
    le_nearestEven (Nat.mul_pos hden' (scaled_fst_pos Nat.one_pos e))
      ((mul_scaled_le_iff _ hden' (2 ^ 52) e).2.mpr habove)
  rw [ofRatio, if_neg hden, if_neg hnum]
  simp only [← he, ← hs]
  -- a significand that is rounded up to the next power of two has the first of its bits set
  split_ifs with hfull hmax hmax
  · exact ⟨show 1 <<< 52 < 2 ^ 53 by decide, by omega, hmax,
      .inl (show 2 ^ 52 ≤ 1 <<< 52 by decide)⟩
  · trivial
  · exact ⟨lt_of_le_of_ne hlong hfull, hsmallest, hmax, hshort⟩
  · trivial

theorem isDouble_add (x y : Binary64) : (x + y).IsDouble := by
  change (x.add y).IsDouble
  cases x <;> cases y
  case finite.finite =>
    rw [add]
    exact isDouble_ofRatio _ _
  all_goals trivial

theorem isDouble_div (x y : Binary64) : (x / y).IsDouble := by
  change (x.div y).IsDouble
  cases x <;> cases y
  case finite.finite =>
    rw [div]
    exact isDouble_ofRatio _ _
  case finite.infinite => exact isDouble_ofRatio 0 1
  all_goals trivial

theorem IsDouble.capAtOne {x : Binary64} (h : x.IsDouble) : x.capAtOne.IsDouble := by
  cases x with
  | finite a e =>
    rw [Binary64.capAtOne]
    dsimp only
    split_ifs
    · exact h
    · exact isDouble_ofRatio _ _
  | infinite => exact isDouble_ofRatio 1 1
  | nan => exact isDouble_ofRatio 1 1

/-! ### The nearest value -/

/-- Whether `s * 2 ^ e` is what a number is rounded to: any other value of at most 53 bits is
further away, or just as far away while the last bit of `s` is not set. -/
def IsNearest (x : ℚ) (s : ℕ) (e : ℤ) : Prop :=
  ∀ (s' : ℕ) (e' : ℤ), s' < 2 ^ 53 → minExponent ≤ e' → (s' : ℚ) * 2 ^ e' ≠ s * 2 ^ e →
    |x - s * 2 ^ e| < |x - s' * 2 ^ e'| ∨ |x - s * 2 ^ e| = |x - s' * 2 ^ e'| ∧ s % 2 = 0

theorem isNearest_self (s : ℕ) (e : ℤ) : IsNearest (s * 2 ^ e) s e := by
  intro s' e' _ _ hne
  rw [sub_self, abs_zero]
  exact .inl (abs_pos.mpr (sub_ne_zero.mpr hne.symm))

section

variable {s s' : ℕ} {e e' : ℤ}

/-- A value with no smaller exponent is a whole number of the units of the last bit. -/
theorem exists_multiple (s' : ℕ) (h : e ≤ e') : ∃ k : ℕ, (s' : ℚ) * 2 ^ e' = k * 2 ^ e := by
  obtain ⟨n, hn⟩ := Int.le.dest h
  refine ⟨s' * 2 ^ n, ?_⟩
  rw [← hn, zpow_add₀ two_ne_zero, zpow_natCast]
  push_cast
  ring

/-- A value with a smaller exponent is below all that have their first bit set, by half a unit of
the last bit at least. -/
theorem le_sub_half_of_exponent_lt (hs' : s' < 2 ^ 53) (h : e' < e) :
    (s' : ℚ) * 2 ^ e' ≤ (2 ^ 52 - 1 / 2) * 2 ^ e := by
  have hs : (s' : ℚ) ≤ 2 ^ 53 - 1 := by
    rw [le_sub_iff_add_le]
    exact_mod_cast hs'
  calc (s' : ℚ) * 2 ^ e' ≤ (2 ^ 53 - 1) * 2 ^ (e - 1) :=
        mul_le_mul hs (zpow_le_zpow_right₀ one_le_two (by omega)) (by positivity) (by norm_num)
    _ = (2 ^ 52 - 1 / 2) * 2 ^ e := by
        rw [zpow_sub_one₀ two_ne_zero]
        ring

/-- The next larger value is a unit of the last bit away. -/
theorem add_le_of_lt (hdouble : (finite s e).IsDouble) (hs' : s' < 2 ^ 53)
    (hsmallest : minExponent ≤ e') (h : (s : ℚ) * 2 ^ e < s' * 2 ^ e') :
    ((s : ℚ) + 1) * 2 ^ e ≤ s' * 2 ^ e' := by
  have hunit : (0 : ℚ) < 2 ^ e := by positivity
  obtain hexponent | hexponent := le_or_gt e e'
  · obtain ⟨k, hk⟩ := exists_multiple s' hexponent
    rw [hk] at h ⊢
    have hsk : s < k := by exact_mod_cast lt_of_mul_lt_mul_right h hunit.le
    gcongr
    exact_mod_cast hsk
  · obtain ⟨-, -, -, hfirst | hlow⟩ := hdouble
    · have hbelow := le_sub_half_of_exponent_lt hs' hexponent
      have hs : (2 ^ 52 : ℚ) ≤ s := by exact_mod_cast hfirst
      nlinarith
    · omega

/-- Half the distance to the next smaller value, in units of the last bit. It is half as large below
the smallest significand of an exponent as elsewhere. -/
def halfGapBelow (s : ℕ) (e : ℤ) : ℚ :=
  if s = 2 ^ 52 ∧ minExponent < e then 1 / 4 else 1 / 2

theorem halfGapBelow_le (s : ℕ) (e : ℤ) : halfGapBelow s e ≤ 1 / 2 := by
  rw [halfGapBelow]
  split_ifs <;> norm_num

theorem le_sub_of_lt (hdouble : (finite s e).IsDouble) (hs' : s' < 2 ^ 53)
    (hsmallest : minExponent ≤ e') (h : (s' : ℚ) * 2 ^ e' < s * 2 ^ e) :
    (s' : ℚ) * 2 ^ e' ≤ (s - 2 * halfGapBelow s e) * 2 ^ e := by
  have hunit : (0 : ℚ) < 2 ^ e := by positivity
  obtain hexponent | hexponent := le_or_gt e e'
  · obtain ⟨k, hk⟩ := exists_multiple s' hexponent
    rw [hk] at h ⊢
    have hks : k < s := by exact_mod_cast lt_of_mul_lt_mul_right h hunit.le
    have hks' : (k : ℚ) + 1 ≤ s := by exact_mod_cast hks
    have hgap := halfGapBelow_le s e
    gcongr
    linarith
  · obtain ⟨-, -, -, hfirst | hlow⟩ := hdouble
    · refine (le_sub_half_of_exponent_lt hs' hexponent).trans
        (mul_le_mul_of_nonneg_right ?_ hunit.le)
      obtain rfl | hs := Nat.eq_or_lt_of_le hfirst
      · rw [halfGapBelow, if_pos ⟨rfl, by omega⟩]
        norm_num
      · have hs : (2 ^ 52 + 1 : ℚ) ≤ s := by exact_mod_cast hs
        have hgap := halfGapBelow_le s e
        linarith
    · omega

/-- Of two numbers the smaller one is nearer to what lies before the middle between them. -/
theorem nearer_or_midway (x : ℚ) {v y : ℚ} (hvy : v < y) (hmiddle : 2 * x ≤ v + y) :
    |x - v| < |x - y| ∨ |x - v| = |x - y| ∧ 2 * x = v + y := by
  have hfar : |x - y| = y - x := by rw [abs_of_neg (by linarith), neg_sub]
  rw [hfar]
  obtain hmiddle | hmiddle := hmiddle.lt_or_eq
  · exact .inl (abs_lt.mpr ⟨by linarith, by linarith⟩)
  · exact .inr ⟨by rw [abs_of_nonneg (by linarith)]; linarith, hmiddle⟩

/-- A number less than half the distance to the next value away is rounded to this value, and so is
one just half the distance away if the last bit is not set. -/
theorem isNearest_of_between {x : ℚ} (hdouble : (finite s e).IsDouble)
    (hlow : (s - halfGapBelow s e) * 2 ^ e ≤ x) (hhigh : x ≤ (s + 1 / 2) * 2 ^ e)
    (hodd : s % 2 = 1 → (s - halfGapBelow s e) * 2 ^ e < x ∧ x < (s + 1 / 2) * 2 ^ e) :
    IsNearest x s e := by
  intro s' e' hs' hsmallest hne
  have heven (h : ¬((s - halfGapBelow s e) * 2 ^ e < x ∧ x < (s + 1 / 2) * 2 ^ e)) : s % 2 = 0 :=
    (Nat.mod_two_eq_zero_or_one s).resolve_right fun hs ↦ h (hodd hs)
  obtain hbelow | habove := lt_or_gt_of_ne hne
  · have hgap := le_sub_of_lt hdouble hs' hsmallest hbelow
    have hmiddle := nearer_or_midway (-x) (neg_lt_neg hbelow) (by linarith)
    rw [neg_sub_neg, neg_sub_neg, abs_sub_comm _ x, abs_sub_comm _ x] at hmiddle
    refine hmiddle.imp_right fun ⟨hequal, hmidway⟩ ↦ ⟨hequal, heven fun hstrict ↦ ?_⟩
    linarith [hstrict.1]
  · have hgap := add_le_of_lt hdouble hs' hsmallest habove
    have hmiddle := nearer_or_midway x habove (by linarith)
    refine hmiddle.imp_right fun ⟨hequal, hmidway⟩ ↦ ⟨hequal, heven fun hstrict ↦ ?_⟩
    linarith [hstrict.2]

end

end Binary64

end TreeAudit
