import Mathlib
import AnchorLoss.Proofs.Exact.Huber
import AnchorLoss.Proofs.Item.Channel

namespace AnchorLoss

namespace Exact

variable {K : Type} [Field K] [LinearOrder K] [FloorRing K] {T : Functions K} {p : Precision}
  {n k : Nat}

theorem sum_toList (v : Vector (Exact T p) n) : Scalar.sum v.toList = ∑ i, (v.get i : K) := by
  rw [toList_eq_ofFn, sum_eq, List.sum_ofFn]

theorem maskedSum_eq (mask : Vector Bool n) (f : Fin n → Exact T p) :
    maskedSum mask f = ∑ i, if mask.get i then (f i : K) else 0 := by
  rw [maskedSum, sum_toList]
  simp

theorem rowError_eq (u t : Vector (Exact T p) k) :
    rowError u t = ∑ j, huber (u.get j - t.get j : Exact T p) := by
  rw [rowError, sum_toList]
  refine Finset.sum_congr rfl fun j _ => ?_
  simp [Vector.get_eq_getElem]

theorem maskedRows_get (normalizer : Exact T p) (mask : Vector Bool n)
    (row : Fin n → Vector (Exact T p) k) (i : Fin n) (j : Fin k) :
    ((maskedRows normalizer mask row).get i).get j =
      ((if mask.get i then (row i).get j else 0) / normalizer : K) := by
  rw [maskedRows, Vector.get_ofFn, Vector.get_map]
  by_cases h : mask.get i = true
  · simp [h]
  · simp [h, Vector.get_replicate]

theorem smoothErrorGradient_get (normalizer : Exact T p) (u t : Vector (Vector (Exact T p) k) n)
    (mask : Vector Bool n) (i : Fin n) (j : Fin k) :
    ((smoothErrorGradient normalizer u t mask).get i).get j =
      ((if mask.get i then huberGradient ((u.get i).get j - (t.get i).get j : Exact T p) else 0) /
        normalizer : K) := by
  rw [smoothErrorGradient, maskedRows_get]
  simp [Vector.get_eq_getElem]

theorem armNormalizer_eq {d : Detector (Wide (Exact T))} (positives : Nat) :
    (Item.armNormalizer d positives : Exact T p) = (positives * d.armDivider : K) := by
  rw [Item.armNormalizer, ofNat_eq]
  rfl

variable [IsStrictOrderedRing K]

theorem rowError_tangent (u v t : Vector (Exact T p) k) :
    (0 : K) ≤ rowError v t - rowError u t -
        ∑ j, huberGradient (u.get j - t.get j : Exact T p) * (v.get j - u.get j) ∧
      (rowError v t - rowError u t -
        ∑ j, huberGradient (u.get j - t.get j : Exact T p) * (v.get j - u.get j) : K) ≤
        ∑ j, (v.get j - u.get j : K) ^ 2 / 2 := by
  have h := fun j => huber_tangent (u.get j - t.get j : Exact T p) (v.get j - t.get j : Exact T p)
  simp only [sub_sub_sub_cancel_right] at h
  rw [rowError_eq, rowError_eq, ← Finset.sum_sub_distrib, ← Finset.sum_sub_distrib]
  exact ⟨Finset.sum_nonneg fun j _ => (h j).1, Finset.sum_le_sum fun j _ => (h j).2⟩

omit [IsStrictOrderedRing K] in
theorem smoothError_sub_tangent (c : Exact T p) (u v t : Vector (Vector (Exact T p) k) n)
    (mask : Vector Bool n) :
    (smoothError v t mask / c - smoothError u t mask / c -
      ∑ i, ∑ j, ((smoothErrorGradient c u t mask).get i).get j *
        ((v.get i).get j - (u.get i).get j) : K) =
      ∑ i, if mask.get i then (rowError (v.get i) (t.get i) - rowError (u.get i) (t.get i) -
        ∑ j, huberGradient ((u.get i).get j - (t.get i).get j : Exact T p) *
          ((v.get i).get j - (u.get i).get j) : K) / c else 0 := by
  rw [smoothError, smoothError, maskedSum_eq, maskedSum_eq, Finset.sum_div, Finset.sum_div,
    ← Finset.sum_sub_distrib, ← Finset.sum_sub_distrib]
  refine Finset.sum_congr rfl fun i _ => ?_
  by_cases h : mask.get i = true
  · have hj : ∀ j, (((smoothErrorGradient c u t mask).get i).get j *
        ((v.get i).get j - (u.get i).get j) : K) =
        huberGradient ((u.get i).get j - (t.get i).get j : Exact T p) *
          ((v.get i).get j - (u.get i).get j) / c := by
      intro j
      rw [smoothErrorGradient_get, if_pos h, div_mul_eq_mul_div]
    simp only [h, if_true, hj, ← Finset.sum_div, ← sub_div]
  · have hj : ∀ j, (((smoothErrorGradient c u t mask).get i).get j : K) = 0 := by
      intro j
      rw [smoothErrorGradient_get, if_neg h, zero_div]
    simp [h, hj]

/-- The error of the selected rows, divided by a positive number, lies above its tangents. -/
theorem smoothError_tangent {c : Exact T p} (hc : (0 : K) < c)
    (u v t : Vector (Vector (Exact T p) k) n) (mask : Vector Bool n) :
    (0 : K) ≤ smoothError v t mask / c - smoothError u t mask / c -
        ∑ i, ∑ j, ((smoothErrorGradient c u t mask).get i).get j *
          ((v.get i).get j - (u.get i).get j) ∧
      (smoothError v t mask / c - smoothError u t mask / c -
        ∑ i, ∑ j, ((smoothErrorGradient c u t mask).get i).get j *
          ((v.get i).get j - (u.get i).get j) : K) ≤
        1 / 2 * ∑ i, if mask.get i then ∑ j, ((v.get i).get j - (u.get i).get j : K) ^ 2 / c
          else 0 := by
  have hrow := fun i => rowError_tangent (u.get i) (v.get i) (t.get i)
  rw [smoothError_sub_tangent, Finset.mul_sum]
  constructor
  · refine Finset.sum_nonneg fun i _ => ?_
    by_cases h : mask.get i = true
    · rw [if_pos h]
      exact div_nonneg (hrow i).1 (le_of_lt hc)
    · rw [if_neg h]
  · refine Finset.sum_le_sum fun i _ => ?_
    by_cases h : mask.get i = true
    · rw [if_pos h, if_pos h, ← Finset.sum_div, mul_div_assoc', Finset.mul_sum]
      refine div_le_div_of_nonneg_right ?_ (le_of_lt hc)
      refine le_trans (hrow i).2 (le_of_eq (Finset.sum_congr rfl fun j _ => ?_))
      ring
    · rw [if_neg h, if_neg h, mul_zero]

end Exact

end AnchorLoss
