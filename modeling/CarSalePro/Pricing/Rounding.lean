import Mathlib.Algebra.Order.Round
import Mathlib.Tactic.Linarith
import Mathlib.Tactic.FieldSimp

namespace Rounding

variable {K : Type*} [Field K] [LinearOrder K] [FloorRing K] {n x y : K}

/-- The nearest multiple of `1 / n`, half up. -/
def onGrid (n x : K) : K := round (x * n) / n

theorem onGrid_mul (hn : n ≠ 0) : onGrid n x * n = round (x * n) := div_mul_cancel₀ _ hn

variable [IsStrictOrderedRing K]

/-- What lies on the grid stays where it is. -/
theorem onGrid_of_mul_eq {a : ℤ} (hn : n ≠ 0) (h : x * n = a) : onGrid n x = x := by
  rw [onGrid, h, round_intCast, ← h, mul_div_cancel_right₀ _ hn]

theorem onGrid_onGrid (hn : n ≠ 0) : onGrid n (onGrid n x) = onGrid n x :=
  onGrid_of_mul_eq hn (onGrid_mul hn)

theorem round_mono (h : x ≤ y) : round x ≤ round y := by
  rw [round_eq, round_eq]
  exact Int.floor_le_floor (by linarith)

theorem round_nonneg (h : 0 ≤ x) : 0 ≤ round x := by
  have hzero := round_mono h
  rwa [round_zero] at hzero

theorem onGrid_mono (hn : 0 < n) (h : x ≤ y) : onGrid n x ≤ onGrid n y := by
  have hscaled : x * n ≤ y * n := mul_le_mul_of_nonneg_right h hn.le
  exact div_le_div_of_nonneg_right (Int.cast_le.mpr (round_mono hscaled)) hn.le

theorem onGrid_nonneg (hn : 0 < n) (h : 0 ≤ x) : 0 ≤ onGrid n x := by
  have hround : 0 ≤ round (x * n) := round_nonneg (mul_nonneg h hn.le)
  exact div_nonneg (by exact_mod_cast hround) hn.le

/-- A whole number scaled up and rounded is found again by scaling down and rounding. -/
theorem round_div_round_mul {f : K} (hf : 1 ≤ f) (a : ℤ) :
    round ((round ((a : K) * f) : K) / f) = a := by
  have hpos : 0 < f := by linarith
  rcases hf.eq_or_lt with rfl | hlt
  · simp
  have herror := abs_le.mp (abs_sub_round ((a : K) * f))
  rw [round_eq_iff, Set.mem_Ico, le_div_iff₀ hpos, div_lt_iff₀ hpos]
  constructor
  · linarith [herror.2]
  · linarith [herror.1]

/-- A point of the grid scaled up is found again. -/
theorem onGrid_div_onGrid_mul {f : K} (hn : n ≠ 0) (hf : 1 ≤ f) (x : K) :
    onGrid n (onGrid n (onGrid n x * f) / f) = onGrid n x := by
  have hup : onGrid n x * f * n = (round (x * n) : K) * f := by
    rw [mul_right_comm, onGrid_mul hn]
  have hdown : onGrid n (onGrid n x * f) / f * n = (round ((round (x * n) : K) * f) : K) / f := by
    rw [div_mul_eq_mul_div, onGrid_mul hn, hup]
  rw [onGrid, hdown, round_div_round_mul hf, onGrid]

/-- One below the rounded quotient is not too much, whatever the rounding. -/
theorem round_pred_mul_le {f : K} (hf : 1 ≤ f) (c : ℤ) :
    round (((round ((c : K) / f) - 1 : ℤ) : K) * f) ≤ c := by
  have hpos : 0 < f := by linarith
  have herror := (abs_le.mp (abs_sub_round ((c : K) / f))).1
  have hquotient : (c : K) / f * f = c := div_mul_cancel₀ _ hpos.ne'
  have hbelow : ((round ((c : K) / f) - 1 : ℤ) : K) * f + 1 / 2 ≤ c := by
    push_cast
    nlinarith
  rw [round_eq]
  exact (Int.floor_le_floor hbelow).trans_eq (Int.floor_intCast c)

/-- One above the rounded quotient is too much. -/
theorem lt_round_succ_mul {f : K} (hf : 1 ≤ f) (c : ℤ) :
    c < round (((round ((c : K) / f) + 1 : ℤ) : K) * f) := by
  have hpos : 0 < f := by linarith
  have habove : (c : K) / f + 1 / 2 < round ((c : K) / f) + 1 := by
    rw [round_eq]
    exact Int.lt_floor_add_one _
  have hquotient : (c : K) / f * f = c := div_mul_cancel₀ _ hpos.ne'
  have hscaled : (c : K) + 1 ≤ ((round ((c : K) / f) + 1 : ℤ) : K) * f + 1 / 2 := by
    push_cast
    nlinarith
  rw [round_eq]
  have hfloor : c + 1 ≤ ⌊((round ((c : K) / f) + 1 : ℤ) : K) * f + 1 / 2⌋ :=
    Int.le_floor.mpr (by exact_mod_cast hscaled)
  omega

end Rounding
