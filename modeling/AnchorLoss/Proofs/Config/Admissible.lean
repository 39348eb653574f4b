import Mathlib
import AnchorLoss.Config.Read
import AnchorLoss.Detector
import AnchorLoss.Proofs.Except

namespace AnchorLoss

namespace LossConfig

theorem refuse_eq_ok {v : Violation} {bad : Except CheckError Bool} :
    refuse v bad = .ok () ↔ bad = .ok false := by
  cases bad with
  | error e => simp [refuse]
  | ok b => cases b <;> simp [refuse]

theorem bind_eq_ok {x y : Except CheckError Unit} :
    (x >>= fun _ => y) = .ok () ↔ x = .ok () ∧ y = .ok () := by
  cases x <;> simp [bind, Except.bind]

section Order

variable {α : Type} [LinearOrder α] {x y : α}

theorem not_compare_lt : (some (compare x y)).any (· == .lt) = false ↔ y ≤ x := by
  rw [← compare_ge_iff_ge]
  cases compare x y <;> simp

theorem not_compare_le : (some (compare x y)).any (· != .gt) = false ↔ y < x := by
  rw [← compare_gt_iff_gt]
  cases compare x y <;> simp

end Order

theorem both_eq_true {a b : Except CheckError Bool} (h : (both a b).map not = .ok false) :
    a = .ok true := by
  cases a with
  | error e => cases h
  | ok a =>
    cases a with
    | false => cases h
    | true => rfl

end LossConfig

namespace Measure

theorem anyNonPositive_eq_false {α : Type} [Measure α] {xs : List α}
    (h : anyNonPositive xs = .ok false) : ∀ x ∈ xs, atMost 0 x = .ok false := by
  induction xs with
  | nil => exact fun x hx => nomatch hx
  | cons y ys ih =>
    simp only [anyNonPositive] at h
    cases hy : atMost 0 y with
    | error e => rw [hy] at h; cases h
    | ok b =>
      rw [hy] at h
      cases b with
      | true => cases h
      | false =>
        intro x hx
        obtain rfl | hx := List.mem_cons.mp hx
        · exact hy
        · exact ih h x hx

theorem pos_of_atMost {n : Int} (h : atMost 0 n = .ok false) : 0 < n :=
  LossConfig.not_compare_le.mp (Except.ok.inj h)

theorem le_of_below {n k : Int} (h : below k n = .ok false) : k ≤ n :=
  LossConfig.not_compare_lt.mp (Except.ok.inj h)

section Float

variable {x : Float}

theorem zero_le_of_atLeast (h : atLeast 0 x = .ok true) : Scalar.le Scalar.zero x = true := by
  have hc : (Value.compareFloats x Scalar.zero).any (· != .lt) = true := Except.ok.inj h
  unfold Value.compareFloats Scalar.lt Scalar.eq at hc
  cases hz : Scalar.le Scalar.zero x with
  | true => rfl
  | false => cases hx : Scalar.le x Scalar.zero <;> simp [hz, hx] at hc

theorem not_lt_of_below (h : below 0 x = .ok false) : Scalar.lt x Scalar.zero = false := by
  have hc : (Value.compareFloats x Scalar.zero).any (· == .lt) = false := Except.ok.inj h
  unfold Value.compareFloats at hc
  cases hz : Scalar.lt x Scalar.zero with
  | false => rfl
  | true => simp [hz] at hc

theorem not_le_of_atMost (h : atMost 0 x = .ok false) : Scalar.le x Scalar.zero = false := by
  have hc : (Value.compareFloats x Scalar.zero).any (· != .gt) = false := Except.ok.inj h
  unfold Value.compareFloats Scalar.lt Scalar.eq at hc
  cases hx : Scalar.le x Scalar.zero with
  | false => rfl
  | true => cases hz : Scalar.le Scalar.zero x <;> simp [hz, hx] at hc

end Float

end Measure

namespace Grid

variable {ρ : Type} {sizes strides : List Int} {anchorSizes : List ρ} (ratios : List ρ)

theorem cellCount_ofLists (hstrides : sizes.length = strides.length)
    (hsizes : strides.length = anchorSizes.length) :
    (cellCount (ofLists sizes strides anchorSizes ratios).scales : Int) =
      LossConfig.cellCount sizes := by
  induction sizes generalizing strides anchorSizes with
  | nil => rfl
  | cons n sizes ih =>
    cases strides with
    | nil => cases hstrides
    | cons t strides =>
      cases anchorSizes with
      | nil => cases hsizes
      | cons s anchorSizes =>
        have hrest := ih (Nat.succ.inj hstrides) (Nat.succ.inj hsizes)
        simp only [ofLists] at hrest
        simp only [ofLists, LossConfig.cellCount, List.zip_cons_cons, List.map_cons, cellCount, cells,
          List.foldr_cons, Nat.cast_add, Nat.cast_mul, Int.natCast_natAbs, abs_mul_abs_self, hrest]

theorem length_ofLists (hstrides : sizes.length = strides.length)
    (hsizes : strides.length = anchorSizes.length) :
    (ofLists sizes strides anchorSizes ratios).scales.length = sizes.length := by
  rw [ofLists, List.length_map, List.length_zip, List.length_zip, ← hsizes, min_self, hstrides, min_self]

theorem mem_ofLists {ratios : List ρ} {s : Scale ρ}
    (h : s ∈ (ofLists sizes strides anchorSizes ratios).scales) :
    s.size ∈ sizes ∧ s.stride ∈ strides := by
  obtain ⟨⟨n, t, a⟩, hz, rfl⟩ := List.mem_map.mp h
  obtain ⟨hn, ht⟩ := List.of_mem_zip hz
  exact ⟨hn, (List.of_mem_zip ht).1⟩

end Grid

namespace LossConfig

/-- Scales and ratios there are, sizes are positive, and neither the threshold nor the ratio of negatives
is less than zero. -/
structure Admissible (c : LossConfig Int Float) : Prop where
  numClasses : 2 ≤ c.numClasses
  mapSizes_ne_nil : c.mapSizes ≠ []
  length_strides : c.mapSizes.length = c.strides.length
  length_anchorSizes : c.strides.length = c.anchorSizes.length
  mapSizes : ∀ n ∈ c.mapSizes, 0 < n
  aspectRatios_ne_nil : c.aspectRatios ≠ []
  aspectRatios : ∀ r ∈ c.aspectRatios, Scalar.le r Scalar.zero = false
  iouThreshold : Scalar.le Scalar.zero c.iouThreshold = true
  negativeRatio : Scalar.lt c.negativeRatio Scalar.zero = false

theorem admissible_of_check {c : LossConfig Int Float} (h : c.check = .ok ()) : Admissible c := by
  simp only [check, bind_eq_ok, refuse_eq_ok] at h
  obtain ⟨hclasses, -, hscale, hlength, hsizes, -, -, hratio, hratios, hiou, -, hnegative, -, -⟩ := h
  have hlengths : c.mapSizes.length = c.strides.length ∧ c.strides.length = c.anchorSizes.length := by
    simpa using hlength
  exact {
    numClasses := Measure.le_of_below hclasses
    mapSizes_ne_nil := by simpa using hscale
    length_strides := hlengths.1
    length_anchorSizes := hlengths.2
    mapSizes := fun n hn => Measure.pos_of_atMost (Measure.anyNonPositive_eq_false hsizes n hn)
    aspectRatios_ne_nil := by simpa using hratio
    aspectRatios := fun r hr =>
      Measure.not_le_of_atMost (Measure.anyNonPositive_eq_false hratios r hr)
    iouThreshold := Measure.zero_le_of_atLeast (both_eq_true hiou)
    negativeRatio := Measure.not_lt_of_below hnegative }

def detector {ρ : Type} (c : LossConfig Int ρ) : Detector ρ where
  classes := (c.numClasses - 1).toNat
  maxTruths := c.maxTruths.toNat
  grid := Grid.ofLists c.mapSizes c.strides c.anchorSizes c.aspectRatios
  iouThreshold := c.iouThreshold
  backgroundThreshold := c.backgroundThreshold
  negativeRatio := c.negativeRatio
  armDivider := c.armDivider
  epsilon := c.epsilon

theorem classes_of_le {ρ : Type} {c : LossConfig Int ρ} (h : 2 ≤ c.numClasses) :
    (c.detector.classes : Int) + 1 = c.numClasses := by
  simp only [detector]
  omega

theorem cellCount_nonneg (sizes : List Int) : 0 ≤ cellCount sizes := by
  induction sizes with
  | nil => exact le_rfl
  | cons n sizes ih => exact add_nonneg (mul_self_nonneg n) ih

theorem cellCount_pos {sizes : List Int} (h : sizes ≠ []) (hpos : ∀ n ∈ sizes, 0 < n) :
    0 < cellCount sizes := by
  cases sizes with
  | nil => exact absurd rfl h
  | cons n sizes =>
    have hn := hpos n List.mem_cons_self
    exact add_pos_of_pos_of_nonneg (mul_pos hn hn) (cellCount_nonneg sizes)

section Lists

variable {ρ : Type} {c : LossConfig Int ρ} (hstrides : c.mapSizes.length = c.strides.length)
  (hsizes : c.strides.length = c.anchorSizes.length)

include hstrides hsizes

theorem grid_of_lengths (hratios : c.aspectRatios ≠ []) : Grid.ofConfig c = .ok c.detector.grid := by
  have hempty : c.aspectRatios.isEmpty = false := List.isEmpty_eq_false_iff.mpr hratios
  rw [Grid.ofConfig, if_pos ⟨hstrides, hsizes⟩, hempty]
  rfl

theorem ofConfig_of_lengths (hratios : c.aspectRatios ≠ []) : Detector.ofConfig c = .ok c.detector := by
  rw [Detector.ofConfig, grid_of_lengths hstrides hsizes hratios]
  rfl

theorem numAnchors_of_lengths : (c.detector.numAnchors : Int) = c.numAnchors := by
  have hcells := Grid.cellCount_ofLists c.aspectRatios hstrides hsizes
  rw [Detector.numAnchors, Grid.numAnchors, Nat.cast_mul, LossConfig.numAnchors, ← hcells]
  rfl

end Lists

namespace Admissible

variable {c : LossConfig Int Float}

theorem ofConfig (h : Admissible c) : Detector.ofConfig c = .ok c.detector :=
  ofConfig_of_lengths h.length_strides h.length_anchorSizes h.aspectRatios_ne_nil

theorem classes (h : Admissible c) : (c.detector.classes : Int) + 1 = c.numClasses :=
  classes_of_le h.numClasses

theorem numAnchors_eq (h : Admissible c) : (c.detector.numAnchors : Int) = c.numAnchors :=
  numAnchors_of_lengths h.length_strides h.length_anchorSizes

theorem numAnchors_pos (h : Admissible c) : 0 < c.detector.numAnchors := by
  have hratios := List.length_pos_iff.mpr h.aspectRatios_ne_nil
  have hcells := cellCount_pos h.mapSizes_ne_nil h.mapSizes
  rw [← Int.natCast_pos, h.numAnchors_eq, LossConfig.numAnchors]
  exact mul_pos hcells (Int.natCast_pos.mpr hratios)

end Admissible

end LossConfig

theorem LossConfig.counts_of_check {ρ : Type} [Measure ρ] {c : LossConfig Int ρ} (h : c.check = .ok ()) :
    2 ≤ c.numClasses ∧ 0 < c.maxTruths := by
  simp only [check, bind_eq_ok, refuse_eq_ok] at h
  exact ⟨Measure.le_of_below h.1, Measure.pos_of_atMost h.2.1⟩

theorem LossConfig.strides_of_check {ρ : Type} [Measure ρ] {c : LossConfig Int ρ} (h : c.check = .ok ()) :
    ∀ t ∈ c.strides, 0 < t := by
  simp only [check, bind_eq_ok, refuse_eq_ok] at h
  obtain ⟨-, -, -, -, -, hstrides, -⟩ := h
  exact fun t ht => Measure.pos_of_atMost (Measure.anyNonPositive_eq_false hstrides t ht)

theorem Detector.counts_ofConfig {ρ : Type} {c : LossConfig Int ρ} {d : Detector ρ}
    (h : ofConfig c = .ok d) : d.classes = (c.numClasses - 1).toNat ∧ d.maxTruths = c.maxTruths.toNat := by
  obtain ⟨grid, -, rfl⟩ := exists_of_map_eq_ok h
  exact ⟨rfl, rfl⟩

theorem Config.check_of_read {document : Value} {c : LossConfig Int Float} (h : read document = .ok c) :
    c.check = .ok () := by
  obtain ⟨entries, -, h⟩ := exists_of_bind_eq_ok h
  obtain ⟨-, -, h⟩ := exists_of_bind_eq_ok h
  obtain ⟨c', -, h⟩ := exists_of_bind_eq_ok h
  obtain ⟨⟨⟩, hc, rfl⟩ := exists_of_map_eq_ok (eq_ok_of_mapError h)
  exact hc

namespace LossConfig

section Layout

variable {ρ σ : Type} {c : LossConfig Int ρ}

/-- What the layout of a batch relies on: lists of settings that go together, room for a class and a box,
and an image with sides of positive length. -/
structure HasLayout (c : LossConfig Int ρ) : Prop where
  numClasses : 2 ≤ c.numClasses
  maxTruths : 0 < c.maxTruths
  length_strides : c.mapSizes.length = c.strides.length
  length_anchorSizes : c.strides.length = c.anchorSizes.length
  aspectRatios_ne_nil : c.aspectRatios ≠ []
  side : ∃ n t, c.mapSizes.head? = some n ∧ c.strides.head? = some t ∧ 0 < n * t

namespace HasLayout

theorem map (h : c.HasLayout) (f : ρ → σ) : (c.map id f).HasLayout where
  numClasses := h.numClasses
  maxTruths := h.maxTruths
  length_strides := by simpa [LossConfig.map] using h.length_strides
  length_anchorSizes := by simpa [LossConfig.map] using h.length_anchorSizes
  aspectRatios_ne_nil := by simpa [LossConfig.map] using h.aspectRatios_ne_nil
  side := by simpa [LossConfig.map] using h.side

theorem grid_ofConfig (h : c.HasLayout) : Grid.ofConfig c = .ok c.detector.grid :=
  grid_of_lengths h.length_strides h.length_anchorSizes h.aspectRatios_ne_nil

theorem ofConfig (h : c.HasLayout) : Detector.ofConfig c = .ok c.detector :=
  ofConfig_of_lengths h.length_strides h.length_anchorSizes h.aspectRatios_ne_nil

theorem numAnchors_eq (h : c.HasLayout) : (c.detector.numAnchors : Int) = c.numAnchors :=
  numAnchors_of_lengths h.length_strides h.length_anchorSizes

theorem classes_eq (h : c.HasLayout) : (c.detector.classes : Int) + 1 = c.numClasses :=
  classes_of_le h.numClasses

theorem predictionWidth_eq (h : c.HasLayout) :
    (c.detector.predictionWidth : Int) = c.predictionWidth := by
  rw [LossConfig.predictionWidth, ← h.classes_eq]
  rfl

theorem labelWidth_eq (h : c.HasLayout) : (c.detector.labelWidth : Int) = c.labelWidth := by
  rw [LossConfig.labelWidth, ← h.classes_eq]
  rfl

theorem maxTruths_eq (h : c.HasLayout) : (c.detector.maxTruths : Int) = c.maxTruths :=
  Int.toNat_of_nonneg (le_of_lt h.maxTruths)

end HasLayout

end Layout

end LossConfig

theorem Config.hasLayout_of_read {document : Value} {c : LossConfig Int Float}
    (h : read document = .ok c) : c.HasLayout := by
  have hcheck := check_of_read h
  have hadm := LossConfig.admissible_of_check hcheck
  have hpos := LossConfig.counts_of_check hcheck
  refine ⟨hpos.1, hpos.2, hadm.length_strides, hadm.length_anchorSizes, hadm.aspectRatios_ne_nil, ?_⟩
  obtain ⟨n, ns, hn⟩ := List.exists_cons_of_ne_nil hadm.mapSizes_ne_nil
  obtain ⟨t, ts, ht⟩ := List.exists_cons_of_length_pos
    (hadm.length_strides ▸ List.length_pos_iff.mpr hadm.mapSizes_ne_nil)
  have hn' := hadm.mapSizes n (hn ▸ List.mem_cons_self)
  have ht' := LossConfig.strides_of_check hcheck t (ht ▸ List.mem_cons_self)
  exact ⟨n, t, by rw [hn, List.head?_cons], by rw [ht, List.head?_cons], mul_pos hn' ht'⟩

end AnchorLoss
