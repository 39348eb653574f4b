import Mathlib
import AnchorLoss.Proofs.Exact.Basic

namespace AnchorLoss

namespace Exact

variable {K : Type} [Field K] [LinearOrder K] [FloorRing K] [IsStrictOrderedRing K]
  {T : Functions K} {p : Precision}

theorem huber_of_le {x : Exact T p} (h : (x : K) ≤ -1) : huber x = (-x - 1 / 2 : K) := by
  have hx : |(x : K)| = -x := abs_of_nonpos (by linarith)
  simp [huber, hx, not_lt.mpr (by linarith : (1 : K) ≤ -x)]

theorem huber_of_ge {x : Exact T p} (h : 1 ≤ (x : K)) : huber x = (x - 1 / 2 : K) := by
  have hx : |(x : K)| = x := abs_of_nonneg (by linarith)
  simp [huber, hx, not_lt.mpr h]

theorem huber_of_abs_lt {x : Exact T p} (h : |(x : K)| < 1) : huber x = ((x : K) ^ 2 / 2 : K) := by
  have hx : (1 / 2 * |(x : K)| * |(x : K)| : K) = x ^ 2 / 2 := by
    rw [mul_assoc, abs_mul_abs_self]
    ring
  rw [← hx]
  simp [huber, h]

theorem huberGradient_of_le {x : Exact T p} (h : (x : K) ≤ -1) : huberGradient x = (-1 : K) := by
  have hm : max (x : K) (-1) = -1 := max_eq_right h
  simp [huberGradient, hm]

theorem huberGradient_of_ge {x : Exact T p} (h : 1 ≤ (x : K)) : huberGradient x = (1 : K) := by
  have hm : max (x : K) (-1) = x := max_eq_left (by linarith)
  simp [huberGradient, hm, h]

theorem huberGradient_of_abs_lt {x : Exact T p} (h : |(x : K)| < 1) : huberGradient x = x := by
  obtain ⟨hl, hr⟩ := abs_lt.mp h
  have hm : max (x : K) (-1) = x := max_eq_left (le_of_lt hl)
  simp [huberGradient, hm, le_of_lt hr]

omit [FloorRing K] in
theorem abs_cases_one (x : K) : x ≤ -1 ∨ |x| < 1 ∨ 1 ≤ x := by
  by_cases hl : x ≤ -1
  · exact .inl hl
  · by_cases hr : 1 ≤ x
    · exact .inr (.inr hr)
    · exact .inr (.inl (abs_lt.mpr ⟨lt_of_not_ge hl, lt_of_not_ge hr⟩))

theorem abs_huberGradient_le (x : Exact T p) : |(huberGradient x : Exact T p)| ≤ (1 : K) := by
  obtain h | h | h := abs_cases_one (x : K)
  · rw [huberGradient_of_le h, abs_neg, abs_one]
  · rw [huberGradient_of_abs_lt h]
    exact le_of_lt h
  · rw [huberGradient_of_ge h, abs_one]

/-- The error as the value of the line whose slope is its derivative. -/
theorem huber_eq_line (x : Exact T p) :
    huber x = (huberGradient x * x - huberGradient x ^ 2 / 2 : K) := by
  obtain h | h | h := abs_cases_one (x : K)
  · rw [huber_of_le h, huberGradient_of_le h]
    ring
  · rw [huber_of_abs_lt h, huberGradient_of_abs_lt h]
    ring
  · rw [huber_of_ge h, huberGradient_of_ge h]
    ring

theorem huber_eq_shifted (x : Exact T p) :
    huber x = (|x - huberGradient x| + huberGradient x ^ 2 / 2 : K) := by
  obtain h | h | h := abs_cases_one (x : K)
  · have hx : |(x : K) - -1| = -(x - -1) := abs_of_nonpos (by linarith)
    rw [huber_of_le h, huberGradient_of_le h, hx]
    ring
  · rw [huber_of_abs_lt h, huberGradient_of_abs_lt h, sub_self, abs_zero, zero_add]
  · have hx : |(x : K) - 1| = x - 1 := abs_of_nonneg (by linarith)
    rw [huber_of_ge h, huberGradient_of_ge h, hx]
    ring

theorem line_le_huber {s : K} (hs : |s| ≤ 1) (x : Exact T p) : s * x - s ^ 2 / 2 ≤ huber x := by
  obtain ⟨hl, hr⟩ := abs_le.mp hs
  obtain h | h | h := abs_cases_one (x : K)
  · rw [huber_of_le h]
    nlinarith only [mul_nonneg (by linarith : 0 ≤ 1 + s) (by linarith : (0 : K) ≤ -1 - x),
      sq_nonneg (1 + s)]
  · rw [huber_of_abs_lt h]
    nlinarith only [sq_nonneg ((x : K) - s)]
  · rw [huber_of_ge h]
    nlinarith only [mul_nonneg (by linarith : 0 ≤ 1 - s) (by linarith : (0 : K) ≤ x - 1),
      sq_nonneg (1 - s)]

theorem huber_le_shifted (w : K) (x : Exact T p) : huber x ≤ |w| + (x - w : K) ^ 2 / 2 := by
  have hl := neg_abs_le w
  have hr := le_abs_self w
  obtain h | h | h := abs_cases_one (x : K)
  · rw [huber_of_le h]
    nlinarith only [sq_nonneg ((x : K) - w + 1), hl]
  · obtain ⟨hxl, hxr⟩ := abs_lt.mp h
    rw [huber_of_abs_lt h]
    have hw : (x : K) * w ≤ |w| := by
      calc (x : K) * w ≤ |x * w| := le_abs_self _
        _ = |(x : K)| * |w| := abs_mul x w
        _ ≤ 1 * |w| := mul_le_mul_of_nonneg_right (le_of_lt h) (abs_nonneg w)
        _ = |w| := one_mul _
    nlinarith only [sq_nonneg w, hw]
  · rw [huber_of_ge h]
    nlinarith only [sq_nonneg ((x : K) - w - 1), hr]

theorem huber_tangent (u v : Exact T p) :
    (0 : K) ≤ huber v - huber u - huberGradient u * (v - u) ∧
      (huber v - huber u - huberGradient u * (v - u) : K) ≤ (v - u : K) ^ 2 / 2 := by
  constructor
  · have h := line_le_huber (abs_huberGradient_le u) v
    rw [huber_eq_line u]
    linarith only [h]
  · have h := huber_le_shifted (u - huberGradient u : K) v
    rw [huber_eq_shifted u]
    linarith only [h]

end Exact

end AnchorLoss
