import Mathlib
import AnchorLoss.Proofs.Binary.Count
import AnchorLoss.Proofs.Config.Admissible

namespace AnchorLoss

namespace Binary

open Float.Model (Format UnpackedFloat totalExponent)
open Float.Model.UnpackedFloat

theorem positive_of_not_le {p : Precision} {x : Binary p} (h : Scalar.le x Scalar.zero = false)
    (hf : IsFinite x) : ∃ m e hm, value x = .finite .positive m e hm := by
  rw [le_eq, value_zero] at h
  unfold IsFinite at hf
  generalize value x = u at h hf
  obtain ⟨s, rfl⟩ | ⟨s, m, e, hm, rfl⟩ := cases_of_isFinite hf
  · cases h
  · cases s with
    | negative => cases h
    | positive => exact ⟨m, e, hm, rfl⟩

theorem eq_zero_of_nonzero {spec : Format} {p : Precision} {x : Binary p} (h : Nonzero spec (value x)) :
    Scalar.eq x Scalar.zero = false := by
  rw [Scalar.eq, le_eq, le_eq, value_zero]
  generalize value x = u at h
  cases h with
  | finite s m e hm he => cases s <;> rfl
  | infinity s => cases s <;> rfl

/-- A square root is taken of a number with a smaller exponent, so that nothing of it is lost. -/
theorem nonzero_sqrt {x : Binary .double} {m : Nat} {e : Int} {hm : 0 < m}
    (h : value x = .finite .positive m e hm) : Nonzero .binary64 (value (Scalar.sqrt x)) := by
  have hexp := (canonical_value h).exponent
  have hv : value (Scalar.sqrt x) = unpack .binary64 (pack .binary64 (sqrt .binary64 (value x))) := rfl
  rw [hv, h]
  simp only [sqrt, sqrtCore]
  apply nonzero_roundWithAccuracy
  apply visible_of_exponent
  · exact Nat.sqrt_pos.mpr (shiftLeft_pos hm _)
  · -- the exponent is halved, which brings it nearer to zero
    have hmin : Format.binary64.minExponent ≤ 0 := by decide
    apply le_min _ (le_max_right _ _)
    calc Format.binary64.minExponent ≤ Format.binary64.minExponent / 2 := by omega
      _ ≤ e / 2 := Int.ediv_le_ediv two_pos hexp

theorem ratioError?_eq_none {r : Wide Binary} (h : Scalar.le r Scalar.zero = false) (hf : IsFinite r) :
    Grid.ratioError? (F := Binary) r = none := by
  obtain ⟨m, e, hm, hv⟩ := positive_of_not_le h hf
  rw [Grid.ratioError?, Scalar.lt, h, eq_zero_of_nonzero (nonzero_sqrt hv)]
  rfl

end Binary

namespace LossConfig

def HasWordStrides {ρ : Type} (c : LossConfig Int ρ) : Prop :=
  ∀ s ∈ c.strides, -0x8000000000000000 ≤ s ∧ s < 0x8000000000000000

namespace Admissible

variable {c : LossConfig Int Float}

theorem error?_eq_none (h : Admissible c) (hs : c.HasWordStrides)
    (hr : ∀ r ∈ c.aspectRatios, Binary.IsFinite (p := .double) r) :
    Grid.error? (F := Binary) c.detector.grid = none := by
  have hscales : c.detector.grid.scales.isEmpty = false := by
    rw [List.isEmpty_eq_false_iff, ← List.length_pos_iff, LossConfig.detector,
      Grid.length_ofLists _ h.length_strides h.length_anchorSizes, List.length_pos_iff]
    exact h.mapSizes_ne_nil
  rw [Grid.error?, hscales]
  refine List.findSome?_eq_none_iff.mpr fun s hm => ?_
  obtain ⟨hn, ht⟩ := Grid.mem_ofLists hm
  have hsize := h.mapSizes s.size hn
  have hfits : Grid.strideFits s.stride = true := by
    have hword := hs s.stride ht
    simp only [Grid.strideFits, Bool.and_eq_true, decide_eq_true_eq]
    omega
  rw [Grid.scaleError?, if_neg (not_lt.mpr hsize.le), hfits]
  exact List.findSome?_eq_none_iff.mpr fun r hm =>
    Binary.ratioError?_eq_none (h.aspectRatios r hm) (hr r hm)

end Admissible

end LossConfig

end AnchorLoss
