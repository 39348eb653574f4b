import Mathlib
import AnchorLoss.Proofs.Exact.Loss

namespace AnchorLoss

namespace Exact

section Exponential

variable {K : Type} [Field K] [LinearOrder K] [FloorRing K] {T : Functions K} {p : Precision} {k : Nat}

theorem softmax_get_top (row : Vector (Exact T p) k) (i : Fin k) : (softmax row).get i =
    (T.exp (row.get i - rowMaximum row) / ∑ j, T.exp (row.get j - rowMaximum row) : K) := by
  simp only [softmax, Vector.get_map, sum_toList]
  rfl

/-- The share of a class less the indicator of the label. -/
def excess (row : Vector (Exact T p) k) (y j : Fin k) : K := (softmax row).get j - if j = y then 1 else 0

theorem labelGradient_get_excess (row : Vector (Exact T p) k) (y j : Fin k) :
    (labelGradient row y).get j = (excess row y j : K) := by
  rw [excess, labelGradient, Vector.get_eq_getElem, Vector.getElem_zipWith, oneHot, Vector.getElem_ofFn]
  by_cases hj : j = y
  · simp [hj, Vector.get_eq_getElem]
  · simp [hj, Vector.get_eq_getElem]

variable [IsStrictOrderedRing K] (hexp : ∀ x, 0 < T.exp x) (row : Vector (Exact T p) k)

include hexp

theorem sum_powers_pos (i : Fin k) : 0 < ∑ j, T.exp (row.get j - rowMaximum row) :=
  Finset.sum_pos (fun _ _ => hexp _) ⟨i, Finset.mem_univ i⟩

theorem sum_softmax (i : Fin k) : (∑ j, (softmax row).get j : K) = 1 := by
  simp only [softmax_get_top, ← Finset.sum_div]
  exact div_self (sum_powers_pos hexp row i).ne'

theorem share_pos (i : Fin k) : (0 : K) < (softmax row).get i := by
  rw [softmax_get_top]
  exact div_pos (hexp _) (sum_powers_pos hexp row i)

theorem share_lt_one {i j : Fin k} (hij : i ≠ j) : ((softmax row).get i : K) < 1 := by
  have hpair := Finset.sum_le_sum_of_subset_of_nonneg (Finset.subset_univ {i, j})
    fun l (_ : l ∈ Finset.univ) _ => (share_pos hexp row l).le
  rw [Finset.sum_pair hij, sum_softmax hexp row i] at hpair
  exact lt_of_lt_of_le (lt_add_of_pos_right _ (share_pos hexp row j)) hpair

variable (y : Fin k)

theorem sum_excess : ∑ j, excess row y j = 0 := by
  simp only [excess, Finset.sum_sub_distrib, sum_softmax hexp row y, Finset.sum_ite_eq',
    Finset.mem_univ, if_true, sub_self]

theorem excess_pos {j : Fin k} (hj : j ≠ y) : 0 < excess row y j := by
  rw [excess, if_neg hj, sub_zero]
  exact share_pos hexp row j

/-- With two classes at least, the label's share alone is below its indicator. -/
theorem excess_neg_iff (hk : 2 ≤ k) (j : Fin k) : excess row y j < 0 ↔ j = y := by
  by_cases hj : j = y
  · have := Fin.nontrivial_iff_two_le.mpr hk
    obtain ⟨i, hi⟩ := exists_ne j
    rw [excess, if_pos hj]
    exact iff_of_true (sub_neg.mpr (share_lt_one hexp row hi.symm)) hj
  · exact iff_of_false (excess_pos hexp row y hj).not_gt hj

theorem excess_ne_zero (hk : 2 ≤ k) (j : Fin k) : excess row y j ≠ 0 := by
  by_cases hj : j = y
  · exact ((excess_neg_iff hexp row y hk j).mpr hj).ne
  · exact (excess_pos hexp row y hj).ne'

end Exponential

variable {p : Precision} {k : Nat}

section Shares

variable (row : Vector (Exact real p) k)

theorem softmax_get (i : Fin k) :
    (softmax row).get i = (Real.exp (row.get i) / ∑ j, Real.exp (row.get j) : ℝ) := by
  rw [softmax_get_top]
  generalize rowMaximum row = top
  change (Real.exp (row.get i - top) / ∑ j, Real.exp (row.get j - top) : ℝ) = _
  simp only [Real.exp_sub, ← Finset.sum_div]
  exact div_div_div_cancel_right₀ (Real.exp_ne_zero top) _ _

theorem sum_exp_pos (i : Fin k) : 0 < ∑ j, Real.exp (row.get j) :=
  Finset.sum_pos (fun _ _ => Real.exp_pos _) ⟨i, Finset.mem_univ i⟩

theorem softmax_pos (i : Fin k) : (0 : ℝ) < (softmax row).get i :=
  share_pos (T := real) Real.exp_pos row i

end Shares

noncomputable def score (row : Vector (Exact real p) k) (y j : Fin k) : ℝ :=
  (softmax row).get j - if j = y then 1 else 0

noncomputable def damping (epsilon : ℝ) (row : Vector (Exact real p) k) (y : Fin k) : ℝ :=
  (softmax row).get y / ((softmax row).get y + epsilon)

section Slopes

variable (row : Vector (Exact real p) k)

theorem labelGradient_get (y j : Fin k) : (labelGradient row y).get j = score row y j :=
  labelGradient_get_excess row y j

theorem score_ne_zero (hk : 2 ≤ k) (y j : Fin k) : score row y j ≠ 0 :=
  excess_ne_zero (T := real) Real.exp_pos row y hk j

theorem damping_eq_one {epsilon : ℝ} (h : 0 ≤ epsilon) (y : Fin k) :
    damping epsilon row y = 1 ↔ epsilon = 0 := by
  have hp := softmax_pos row y
  rw [damping, div_eq_one_iff_eq (add_pos_of_pos_of_nonneg hp h).ne']
  exact left_eq_add

theorem hasDerivAt_exp (j i : Fin k) :
    HasDerivAt (fun x : ℝ => Real.exp ((setAt row j x).get i))
      (if i = j then Real.exp (row.get j) else 0) (row.get j) := by
  by_cases hij : i = j
  · simp only [get_setAt, if_pos hij]
    exact Real.hasDerivAt_exp (row.get j)
  · simp only [get_setAt, if_neg hij]
    exact hasDerivAt_const _ _

theorem hasDerivAt_sum_exp (j : Fin k) :
    HasDerivAt (fun x : ℝ => ∑ i, Real.exp ((setAt row j x).get i)) (Real.exp (row.get j))
      (row.get j) := by
  have hsum := HasDerivAt.fun_sum fun i (_ : i ∈ Finset.univ) => hasDerivAt_exp row j i
  rwa [Finset.sum_ite_eq' Finset.univ j, if_pos (Finset.mem_univ j)] at hsum

theorem hasDerivAt_softmax (j i : Fin k) :
    HasDerivAt (fun x : ℝ => ((softmax (setAt row j x)).get i : ℝ))
      ((softmax row).get i * ((if i = j then 1 else 0) - (softmax row).get j)) (row.get j) := by
  simp only [softmax_get]
  have hne : (∑ l, Real.exp ((setAt row j (row.get j)).get l)) ≠ 0 := (sum_exp_pos _ i).ne'
  refine ((hasDerivAt_exp row j i).div (hasDerivAt_sum_exp row j) hne).congr_deriv ?_
  rw [setAt_get] at hne ⊢
  by_cases hij : i = j
  · subst hij
    rw [if_pos rfl, if_pos rfl]
    field_simp
  · rw [if_neg hij, if_neg hij]
    field_simp
    ring

/-- The loss of a row with its label, as a function of one entry. -/
theorem hasDerivAt_labelLoss {epsilon : Exact real p} (h : (0 : ℝ) ≤ epsilon) (y j : Fin k) :
    HasDerivAt (F := ℝ) (fun x : ℝ => (labelLoss epsilon (setAt row j x) y : Exact real p))
      (damping epsilon row y * score row y j) (row.get j) := by
  have hshare := (hasDerivAt_softmax row j y).add_const epsilon
  refine (hshare.log ?_).neg.congr_deriv ?_
  · rw [setAt_get]
    exact (add_pos_of_pos_of_nonneg (softmax_pos row y) h).ne'
  · rw [setAt_get, damping, score]
    by_cases hy : y = j
    · rw [if_pos hy, if_pos hy.symm]
      ring
    · rw [if_neg hy, if_neg fun hj => hy hj.symm]
      ring

end Slopes

end Exact

end AnchorLoss
