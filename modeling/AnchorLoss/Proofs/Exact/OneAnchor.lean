import Mathlib
import AnchorLoss.Proofs.Engine.Positive
import AnchorLoss.Proofs.Exact.Accepted

namespace AnchorLoss

namespace Exact

namespace OneAnchor

noncomputable section

def config (epsilon : ℝ) : LossConfig Int ℝ where
  numClasses := 2
  maxTruths := 1
  mapSizes := [1]
  strides := [8]
  anchorSizes := [8]
  aspectRatios := [1]
  iouThreshold := 1 / 2
  backgroundThreshold := 1
  negativeRatio := 3
  armDivider := 1
  epsilon := epsilon

def detector (epsilon : ℝ) : Detector (Wide (Exact real)) where
  classes := 1
  maxTruths := 1
  grid := ⟨[⟨1, 8, 8⟩], [1]⟩
  iouThreshold := (1 / 2 : ℝ)
  backgroundThreshold := (1 : ℝ)
  negativeRatio := (3 : ℝ)
  armDivider := (1 : ℝ)
  epsilon := epsilon

def row (x : ℝ) : Vector ℝ (1 + 11) := #v[x] ++ (Vector.replicate 11 0 : Vector ℝ 11)

def predictions (row : Vector ℝ 12) : Tensor (Exact real .single) :=
  ⟨[1, 1, 12], row.toArray, row.size_toArray⟩

def labels : TypedTensor (Exact real) :=
  .float .single ⟨[1, 1, 7], (#v[1, 0, 0, 8, 8, 0, 1] : Vector ℝ 7).toArray, Vector.size_toArray _⟩

def box : Tensor (Exact real .single) :=
  ⟨[1, 1, 7], (#v[1, 0, 0, 8, 8, 0, 1] : Vector ℝ 7).toArray, Vector.size_toArray _⟩

end

theorem shape_predictions (row : Vector ℝ 12) : (predictions row).shape = [1, 1, 12] := rfl

theorem ofConfig_config (epsilon : ℝ) :
    Detector.ofConfig (config epsilon) = .ok (detector epsilon) := rfl

theorem check_config {epsilon : ℝ} (h : 0 ≤ epsilon) : (config epsilon).check = .ok () := by
  simp only [LossConfig.check, LossConfig.bind_eq_ok, LossConfig.refuse_eq_ok]
  have h₁ : compare (1 : ℝ) 0 = .gt := compare_gt_iff_gt.mpr one_pos
  refine ⟨rfl, rfl, rfl, rfl, rfl, rfl, ?_, rfl, ?_, ?_, ?_, ?_, ?_, ?_⟩
  · have h₈ : compare (8 : ℝ) 0 = .gt := compare_gt_iff_gt.mpr (by norm_num)
    simp [config, Measure.anyNonPositive, Measure.atMost, Measure.holds, Measure.against, h₈]
    rfl
  · simp [config, Measure.anyNonPositive, Measure.atMost, Measure.holds, Measure.against, h₁]
    rfl
  · have h₀ : compare (2⁻¹ : ℝ) 0 = .gt := compare_gt_iff_gt.mpr (by norm_num)
    have h₂ : compare (2⁻¹ : ℝ) 1 = .lt := compare_lt_iff_lt.mpr (by norm_num)
    simp [config, LossConfig.both, Measure.atLeast, Measure.atMost, Measure.holds, Measure.against,
      h₀, h₂]
    rfl
  · simp [config, LossConfig.both, Measure.above, Measure.atMost, Measure.holds, Measure.against, h₁]
    rfl
  · have h₃ : (0 : ℝ) ≤ 3 := by norm_num
    simp [config, Measure.below, Measure.holds, Measure.against, compare_lt_iff_lt, h₃]
  · simp [config, Measure.atMost, Measure.holds, Measure.against, h₁]
  · simp [config, Measure.below, Measure.holds, Measure.against, compare_lt_iff_lt, h]

theorem record_predictions (epsilon : ℝ) (row : Vector ℝ 12) : ∃ i,
    Engine.record (detector epsilon) (.float .single (predictions row)) labels =
      .ok ⟨.single, .plain, [i]⟩ ∧ i.item.numPositives = 1 := by
  have hg : Grid.error? (F := Exact real) (detector epsilon).grid = none := by
    have hs : (Scalar.sqrt (1 : ℝ) : Wide (Exact real)) = (1 : ℝ) := Real.sqrt_one
    have h₁ : ¬(1 : ℝ) < 0 := by norm_num
    simp [Grid.error?, Grid.scaleError?, Grid.ratioError?, Grid.strideFits, detector, Scalar.eq, hs, h₁]
  have f : Fit (detector epsilon) ⟨.plain, 1, 1, 12⟩ ⟨.plain, 1, 1, 7⟩ :=
    ⟨one_ne_zero, rfl, rfl, rfl, rfl, rfl⟩
  have hr : ∃ is, Engine.record (detector epsilon) (.float .single (predictions row)) labels =
      .ok ⟨.single, .plain, is⟩ := record_of_fit f rfl rfl hg
  obtain ⟨is, hr⟩ := hr
  obtain ⟨t, ht, hrec⟩ := Engine.record_eq_ok hr
  cases ht
  have hlen : is.length = 1 := by
    exact (List.cons.inj hrec.shape).1.symm
  obtain ⟨i, rfl⟩ := List.length_eq_one_iff.mp hlen
  have h0 : i.item.numPositives ≠ 0 := by
    have hx : ((labels.toFloat .single).element? 1 7 0 0 0 : Option ℝ) = some 1 := by
      simp [labels, TypedTensor.toFloat, Tensor.element?, Tensor.map]
      rfl
    refine Engine.numPositives_ne_zero (b := 0) hr Nat.one_pos Nat.one_pos Nat.one_pos hx ?_
    simp [Scalar.eq]
  have h1 := hrec.numPositives i (List.mem_singleton.mpr rfl)
  have h2 : countTrue i.item.positive ≤ 1 := by
    refine le_trans List.count_le_length (le_of_eq ?_)
    exact Vector.length_toList
  exact ⟨i, hr, by omega⟩

end OneAnchor

end Exact

end AnchorLoss
