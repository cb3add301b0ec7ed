import Mathlib.Algebra.Order.Field.Power
import Mathlib.Tactic.NormNum
import Mathlib.Tactic.Ring
import StoryEngine.Double.Decimal

/-! # What rounds to a number

The rationals that round to a binary64 magnitude reach half of the last binary place to both
sides, and half of that below a power of two. Between two neighbours the middle belongs to the
even one, so that no rational rounds to two magnitudes.
-/

namespace StoryEngine.Double

/-- A quarter of the last binary place. -/
def quarter (x : Double) : ℚ := 2 ^ (x.exponent - 2)

theorem quarter_pos (x : Double) : 0 < x.quarter := zpow_pos two_pos _

/-- The rational lies in the neighbourhood of the magnitude of `x`. -/
structure Rounds (x : Double) (q : ℚ) : Prop where
  low_le : x.neighbourhood.low * x.quarter ≤ q
  le_high : q ≤ x.neighbourhood.high * x.quarter
  open_of_odd : x.neighbourhood.closed = false →
    x.neighbourhood.low * x.quarter ≠ q ∧ q ≠ x.neighbourhood.high * x.quarter

def Below (x y : Double) : Prop :=
  x.exponent < y.exponent ∨ x.exponent = y.exponent ∧ x.significand < y.significand

variable {x y : Double} {q : ℚ}

theorem closed_eq_false_of_odd (h : x.significand % 2 = 1) : x.neighbourhood.closed = false := by
  simp [neighbourhood, h]

/-- The lowest number that has its exponent is a quarter further from what rounds below it. -/
theorem low_of_lt_exponent (h : -1074 < x.exponent) :
    2 ^ 54 ≤ x.neighbourhood.low + 1 := by
  obtain ⟨-, -, -, hm | he⟩ := x.normal
  · simp only [neighbourhood]
    simp only [Nat.pow_eq] at hm ⊢
    split <;> omega
  · omega

theorem low_of_lt_significand (he : x.exponent = y.exponent) (hm : x.significand < y.significand) :
    y.neighbourhood.low = 4 * y.significand - 2 := by
  obtain ⟨-, -, -, hn⟩ := x.normal
  simp only [neighbourhood]
  rw [if_neg]
  omega

theorem two_mul_quarter_le (h : x.exponent < y.exponent) : 2 * x.quarter ≤ y.quarter := by
  rw [quarter, quarter, ← zpow_one_add₀ two_ne_zero]
  exact zpow_le_zpow_right₀ one_le_two (by omega)

theorem le_low_of_lt_exponent (h : x.exponent < y.exponent) :
    (2 ^ 55 - 2) * x.quarter ≤ y.neighbourhood.low * y.quarter := by
  have hlow := low_of_lt_exponent (x.normal.2.1.trans_lt h)
  have hc : (2 ^ 54 - 1 : ℚ) ≤ y.neighbourhood.low :=
    sub_le_iff_le_add.mpr (by exact_mod_cast hlow)
  calc (2 ^ 55 - 2) * x.quarter = (2 ^ 54 - 1) * (2 * x.quarter) := by ring
    _ ≤ y.neighbourhood.low * y.quarter :=
      mul_le_mul hc (two_mul_quarter_le h) (mul_nonneg two_pos.le x.quarter_pos.le)
        (Nat.cast_nonneg _)

/-- Neighbourhoods of different magnitudes meet at most in an end that belongs to one of them. -/
theorem Below.high_le_low (h : x.Below y) :
    x.neighbourhood.high * x.quarter < y.neighbourhood.low * y.quarter ∨
      x.neighbourhood.high * x.quarter ≤ y.neighbourhood.low * y.quarter ∧
        (x.neighbourhood.closed = false ∨ y.neighbourhood.closed = false) := by
  have hh : x.neighbourhood.high = 4 * x.significand + 2 := rfl
  rcases h with he | ⟨he, hm⟩
  · have hm : x.significand < 2 ^ 53 := x.normal.1
    have hl := le_low_of_lt_exponent he
    by_cases hodd : x.significand + 1 = 2 ^ 53
    · refine Or.inr ⟨le_trans (mul_le_mul_of_nonneg_right ?_ x.quarter_pos.le) hl,
        Or.inl (closed_eq_false_of_odd (by omega))⟩
      have hc : x.neighbourhood.high + 2 ≤ 2 ^ 55 := by omega
      exact le_sub_iff_add_le.mpr (by exact_mod_cast hc)
    · refine Or.inl (lt_of_lt_of_le (mul_lt_mul_of_pos_right ?_ x.quarter_pos) hl)
      have hc : x.neighbourhood.high + 2 < 2 ^ 55 := by omega
      exact lt_sub_iff_add_lt.mpr (by exact_mod_cast hc)
  · have hlow := low_of_lt_significand he hm
    have hq : x.quarter = y.quarter := by rw [quarter, quarter, he]
    rw [hh, hlow, hq]
    by_cases hs : y.significand = x.significand + 1
    · refine Or.inr ⟨mul_le_mul_of_nonneg_right ?_ y.quarter_pos.le, ?_⟩
      · exact Nat.cast_le.mpr (by omega)
      · rcases Nat.mod_two_eq_zero_or_one x.significand with h0 | h1
        · exact Or.inr (closed_eq_false_of_odd (by omega))
        · exact Or.inl (closed_eq_false_of_odd h1)
    · exact Or.inl (mul_lt_mul_of_pos_right (Nat.cast_lt.mpr (by omega)) y.quarter_pos)

theorem Below.not_rounds (h : x.Below y) (hx : x.Rounds q) : ¬ y.Rounds q := by
  intro hy
  rcases h.high_le_low with hlt | ⟨hle, ho⟩
  · exact absurd (hx.le_high.trans_lt (hlt.trans_le hy.low_le)) (lt_irrefl q)
  · have hq : q = x.neighbourhood.high * x.quarter :=
      le_antisymm hx.le_high (hle.trans hy.low_le)
    have hq' : y.neighbourhood.low * y.quarter = q :=
      le_antisymm hy.low_le (hx.le_high.trans hle)
    rcases ho with ho | ho
    · exact (hx.open_of_odd ho).2 hq
    · exact (hy.open_of_odd ho).1 hq'

theorem Rounds.unique (hx : x.Rounds q) (hy : y.Rounds q) :
    x.significand = y.significand ∧ x.exponent = y.exponent := by
  have hxy : ¬ x.Below y := fun h => h.not_rounds hx hy
  have hyx : ¬ y.Below x := fun h => h.not_rounds hy hx
  unfold Below at hxy hyx
  omega

end StoryEngine.Double
