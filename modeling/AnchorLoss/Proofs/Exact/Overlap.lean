import Mathlib
import AnchorLoss.Box.Basic
import AnchorLoss.Proofs.Exact.Basic

namespace AnchorLoss

namespace Box

section Shape

variable {K : Type} [Field K] [LinearOrder K]

def HasArea (b : Box K) : Prop := 0 < b.size.y ∧ 0 < b.size.x

def Near (a b : Box K) : Prop :=
  |a.center.y - b.center.y| < (a.size.y + b.size.y) / (2 : Nat) ∧
    |a.center.x - b.center.x| < (a.size.x + b.size.x) / (2 : Nat)

def region (b : Box K) : Set (K × K) :=
  Set.Icc (b.center.y - b.size.y / (2 : Nat)) (b.center.y + b.size.y / (2 : Nat)) ×ˢ
    Set.Icc (b.center.x - b.size.x / (2 : Nat)) (b.center.x + b.size.x / (2 : Nat))

end Shape

def overlaps {α : Type} [Scalar α] {n m : Nat} (as : Vector (Box α) n) (bs : Vector (Box α) m) :
    Matrix (Fin n) (Fin m) α :=
  Matrix.of fun i j => (as.get i).overlap (bs.get j)

end Box

namespace Exact

section Reach

variable {K : Type} [Field K] [LinearOrder K]

/-- How far two spans of a line, given by centre and size, reach into each other; negative for spans that lie
apart. -/
def reach (c s c' s' : K) : K :=
  min (c + s / (2 : Nat)) (c' + s' / (2 : Nat)) - max (c - s / (2 : Nat)) (c' - s' / (2 : Nat))

theorem reach_comm (c s c' s' : K) : reach c s c' s' = reach c' s' c s := by
  rw [reach, reach, min_comm, max_comm]

variable [IsStrictOrderedRing K]

theorem reach_eq (c s c' s' : K) :
    reach c s c' s' = min (min s s') ((s + s') / 2 - |c - c'|) := by
  -- of the four distances from an upper to a lower end, those within one span are the sizes
  rw [reach, Nat.cast_ofNat]
  grind

theorem reach_le_left (c s c' s' : K) : reach c s c' s' ≤ s := by
  rw [reach_eq]
  exact (min_le_left _ _).trans (min_le_left _ _)

theorem reach_self (c s : K) : reach c s c s = s := by
  rw [reach]
  simp only [min_self, max_self]
  ring

theorem reach_pos_iff (c s c' s' : K) :
    0 < reach c s c' s' ↔ 0 < s ∧ 0 < s' ∧ |c - c'| < (s + s') / 2 := by
  rw [reach_eq, lt_min_iff, lt_min_iff, sub_pos, and_assoc]

theorem eq_of_reach_eq {c s c' s' : K} (h : reach c s c' s' = s) (h' : reach c s c' s' = s') :
    s = s' ∧ c = c' := by
  have hs : s = s' := h.symm.trans h'
  refine ⟨hs, ?_⟩
  have hd : reach c s c' s' ≤ (s + s') / 2 - |c - c'| := by
    rw [reach_eq]
    exact min_le_right _ _
  rw [h, ← hs, add_self_div_two] at hd
  exact sub_eq_zero.mp (abs_nonpos_iff.mp (by linarith))

end Reach

section Shared

variable {K : Type} [Field K] [LinearOrder K] [FloorRing K] {T : Functions K} {p : Precision}
  (a b : Box (Exact T p))

def common : K :=
  max (reach (a.center.y : K) a.size.y b.center.y b.size.y) 0 *
    max (reach (a.center.x : K) a.size.x b.center.x b.size.x) 0

theorem common_comm : common a b = common b a := by
  rw [common, common, reach_comm (a.center.y : K), reach_comm (a.center.x : K)]

theorem common_nonneg [IsStrictOrderedRing K] : 0 ≤ common a b :=
  mul_nonneg (le_max_right _ _) (le_max_right _ _)

theorem overlap_eq_ite : a.overlap b =
    (if 0 < a.area + b.area - common a b then common a b / (a.area + b.area - common a b) else 0 : K) := by
  have hshared : Box.sharedArea a.corners b.corners = (common a b : K) := by
    simp [Box.sharedArea, Box.corners, Axes.zipWith, common, reach, div_eq_inv_mul]
  rw [Box.overlap, hshared, Box.overlapOf]
  simp

theorem overlap_comm : a.overlap b = (b.overlap a : K) := by
  rw [overlap_eq_ite, overlap_eq_ite, common_comm, add_comm (a.area : K)]

variable [IsStrictOrderedRing K]

omit [FloorRing K] in
theorem max_mul_max_pos_iff {x y : K} : 0 < max x 0 * max y 0 ↔ 0 < x ∧ 0 < y := by
  constructor
  · intro h
    have hx : max x 0 ≠ 0 := left_ne_zero_of_mul h.ne'
    have hy : max y 0 ≠ 0 := right_ne_zero_of_mul h.ne'
    exact ⟨not_le.mp fun hn => hx (max_eq_right hn), not_le.mp fun hn => hy (max_eq_right hn)⟩
  · rintro ⟨hx, hy⟩
    exact mul_pos (lt_max_of_lt_left hx) (lt_max_of_lt_left hy)

theorem common_pos_iff : 0 < common a b ↔
    Box.HasArea (K := K) a ∧ Box.HasArea (K := K) b ∧ Box.Near (K := K) a b := by
  rw [common, max_mul_max_pos_iff, reach_pos_iff, reach_pos_iff, Box.HasArea, Box.HasArea, Box.Near,
    Nat.cast_ofNat]
  tauto

variable {a b}

theorem area_pos (ha : Box.HasArea (K := K) a) : (0 : K) < a.area :=
  mul_pos ha.1 ha.2

theorem common_le_area (ha : Box.HasArea (K := K) a) : common a b ≤ a.area :=
  mul_le_mul (max_le (reach_le_left _ _ _ _) ha.1.le) (max_le (reach_le_left _ _ _ _) ha.2.le)
    (le_max_right _ _) ha.1.le

theorem common_lt_areas (ha : Box.HasArea (K := K) a) (hb : Box.HasArea (K := K) b) :
    common a b + common a b ≤ a.area + b.area ∧ 0 < a.area + b.area - common a b := by
  have hca := common_le_area (b := b) ha
  have hcb := common_le_area (b := a) hb
  have hpos := area_pos hb
  rw [common_comm] at hcb
  exact ⟨add_le_add hca hcb, by linarith⟩

theorem overlap_of_hasArea (ha : Box.HasArea (K := K) a) (hb : Box.HasArea (K := K) b) :
    a.overlap b = (common a b / (a.area + b.area - common a b) : K) := by
  rw [overlap_eq_ite, if_pos (common_lt_areas ha hb).2]

omit [IsStrictOrderedRing K] in
theorem overlap_of_common_eq_zero (h : common a b = 0) : a.overlap b = (0 : K) := by
  rw [overlap_eq_ite, h, zero_div]
  exact ite_self 0

variable (a b)

theorem overlap_pos_iff : (0 : K) < a.overlap b ↔
    Box.HasArea (K := K) a ∧ Box.HasArea (K := K) b ∧ Box.Near (K := K) a b := by
  rw [← common_pos_iff]
  obtain h | h := (common_nonneg a b).lt_or_eq
  · obtain ⟨ha, hb, -⟩ := (common_pos_iff a b).mp h
    rw [overlap_of_hasArea ha hb]
    exact iff_of_true (div_pos h (common_lt_areas ha hb).2) h
  · rw [overlap_of_common_eq_zero h.symm, ← h]

theorem overlap_mem_Icc : (a.overlap b : K) ∈ Set.Icc 0 1 := by
  obtain h | h := (common_nonneg a b).lt_or_eq
  · obtain ⟨ha, hb, -⟩ := (common_pos_iff a b).mp h
    obtain ⟨htwice, hpos⟩ := common_lt_areas ha hb
    rw [overlap_of_hasArea ha hb]
    exact ⟨div_nonneg h.le hpos.le, (div_le_one hpos).mpr (by linarith)⟩
  · rw [overlap_of_common_eq_zero h.symm]
    exact ⟨le_rfl, zero_le_one⟩

variable {a b}

theorem reach_eq_of_common_eq (ha : Box.HasArea (K := K) a) (h : common a b = a.area) :
    reach (a.center.y : K) a.size.y b.center.y b.size.y = a.size.y ∧
      reach (a.center.x : K) a.size.x b.center.x b.size.x = a.size.x := by
  have hpos : 0 < common a b := h ▸ area_pos ha
  obtain ⟨hy, hx⟩ := max_mul_max_pos_iff.mp hpos
  rw [common, max_eq_left hy.le, max_eq_left hx.le] at h
  exact (mul_eq_mul_iff_eq_and_eq_of_pos (reach_le_left _ _ _ _) (reach_le_left _ _ _ _) hy ha.2).mp h

theorem eq_of_common_eq (ha : Box.HasArea (K := K) a) (hb : Box.HasArea (K := K) b)
    (h : common a b = a.area) (h' : common a b = b.area) : a = b := by
  obtain ⟨hya, hxa⟩ := reach_eq_of_common_eq ha h
  obtain ⟨hyb, hxb⟩ := reach_eq_of_common_eq hb ((common_comm b a).trans h')
  rw [reach_comm] at hyb hxb
  obtain ⟨hsy, hcy⟩ := eq_of_reach_eq hya hyb
  obtain ⟨hsx, hcx⟩ := eq_of_reach_eq hxa hxb
  obtain ⟨⟨cy, cx⟩, ⟨sy, sx⟩⟩ := a
  obtain ⟨⟨cy', cx'⟩, ⟨sy', sx'⟩⟩ := b
  simp only at hsy hcy hsx hcx
  rw [hsy, hcy, hsx, hcx]

theorem overlap_self (ha : Box.HasArea (K := K) a) : a.overlap a = (1 : K) := by
  have hcommon : common a a = a.area := by
    rw [common, reach_self, reach_self, max_eq_left ha.1.le, max_eq_left ha.2.le]
    rfl
  rw [overlap_of_hasArea ha ha, hcommon, add_sub_cancel_right]
  exact div_self (area_pos ha).ne'

variable (a b)

theorem overlap_eq_one_iff : a.overlap b = (1 : K) ↔ a = b ∧ Box.HasArea (K := K) a := by
  constructor
  · intro h
    have hpos : (0 : K) < a.overlap b := h ▸ zero_lt_one
    obtain ⟨ha, hb, -⟩ := (overlap_pos_iff a b).mp hpos
    rw [overlap_of_hasArea ha hb, div_eq_one_iff_eq (common_lt_areas ha hb).2.ne'] at h
    have hca := common_le_area (b := b) ha
    have hcb := common_le_area (b := a) hb
    rw [common_comm] at hcb
    exact ⟨eq_of_common_eq ha hb (by linarith) (by linarith), ha⟩
  · rintro ⟨rfl, ha⟩
    exact overlap_self ha

end Shared

section Volume

variable {T : Functions ℝ} {p : Precision}

noncomputable def areaOf (s : Set (ℝ × ℝ)) : ℝ := MeasureTheory.volume.real s

theorem areaOf_rectangle (l h l' h' : ℝ) :
    areaOf (Set.Icc l h ×ˢ Set.Icc l' h') = max (h - l) 0 * max (h' - l') 0 := by
  rw [areaOf, MeasureTheory.Measure.volume_eq_prod, MeasureTheory.measureReal_prod_prod,
    Real.volume_real_Icc, Real.volume_real_Icc]

theorem areaOf_region {b : Box (Exact T p)} (hb : Box.HasArea (K := ℝ) b) :
    areaOf (Box.region (K := ℝ) b) = b.area := by
  have hspan : ∀ c s : ℝ, c + s / (2 : Nat) - (c - s / (2 : Nat)) = s := fun c s => by ring
  rw [Box.region, areaOf_rectangle, hspan, hspan, max_eq_left hb.1.le, max_eq_left hb.2.le]
  rfl

theorem areaOf_inter (a b : Box (Exact T p)) :
    areaOf (Box.region (K := ℝ) a ∩ Box.region (K := ℝ) b) = common a b := by
  rw [Box.region, Box.region, Set.prod_inter_prod, Set.Icc_inter_Icc, Set.Icc_inter_Icc, areaOf_rectangle]
  rfl

theorem areaOf_union (a b : Box ℝ) : areaOf (a.region ∪ b.region) + areaOf (a.region ∩ b.region) =
    areaOf a.region + areaOf b.region := by
  have hcompact : ∀ b : Box ℝ, IsCompact b.region := fun b => isCompact_Icc.prod isCompact_Icc
  exact MeasureTheory.measureReal_union_add_inter (hcompact b).measurableSet
    (hcompact a).measure_lt_top.ne (hcompact b).measure_lt_top.ne

theorem overlap_eq_share {a b : Box (Exact T p)} (ha : Box.HasArea (K := ℝ) a)
    (hb : Box.HasArea (K := ℝ) b) : a.overlap b =
      areaOf (Box.region (K := ℝ) a ∩ Box.region (K := ℝ) b) /
        areaOf (Box.region (K := ℝ) a ∪ Box.region (K := ℝ) b) := by
  have hunion := eq_sub_of_add_eq (areaOf_union a b)
  rw [areaOf_region ha, areaOf_region hb] at hunion
  rw [hunion, areaOf_inter, overlap_of_hasArea ha hb]

end Volume

/-- What the table of the overlaps of two lists of boxes says about them. -/
structure Measures {n m : Nat} (as : Vector (Box ℝ) n) (bs : Vector (Box ℝ) m)
    (table : Matrix (Fin n) (Fin m) ℝ) (swapped : Matrix (Fin m) (Fin n) ℝ) : Prop where
  mem_Icc : ∀ i j, table i j ∈ Set.Icc 0 1
  pos_iff : ∀ i j, 0 < table i j ↔ (as.get i).HasArea ∧ (bs.get j).HasArea ∧ (as.get i).Near (bs.get j)
  eq_one_iff : ∀ i j, table i j = 1 ↔ as.get i = bs.get j ∧ (as.get i).HasArea
  transpose : swapped = table.transpose
  eq_share : ∀ i j, (as.get i).HasArea → (bs.get j).HasArea → table i j =
    areaOf ((as.get i).region ∩ (bs.get j).region) / areaOf ((as.get i).region ∪ (bs.get j).region)

/-- Intersection over union is right for all real boxes. -/
theorem measures_overlaps (T : Functions ℝ) (p : Precision) {n m : Nat} (as : Vector (Box (Exact T p)) n)
    (bs : Vector (Box (Exact T p)) m) :
    Measures as bs (Box.overlaps (α := Exact T p) as bs) (Box.overlaps (α := Exact T p) bs as) where
  mem_Icc i j := overlap_mem_Icc (as.get i) (bs.get j)
  pos_iff i j := overlap_pos_iff (as.get i) (bs.get j)
  eq_one_iff i j := overlap_eq_one_iff (as.get i) (bs.get j)
  transpose := Matrix.ext fun j i => overlap_comm (bs.get j) (as.get i)
  eq_share _ _ := overlap_eq_share

section Inverted

def unitBox : Box ℝ := ⟨⟨0, 0⟩, ⟨1, 1⟩⟩

def invertedBox : Box ℝ := ⟨⟨0, 0⟩, ⟨-1, -1⟩⟩

theorem measures_overlaps_inverted :
    Measures #v[unitBox] #v[unitBox, invertedBox]
      (Box.overlaps (α := Exact real .double) #v[unitBox] #v[unitBox, invertedBox])
      (Box.overlaps (α := Exact real .double) #v[unitBox, invertedBox] #v[unitBox]) ∧
    Box.overlap (α := Exact real .double) unitBox unitBox = (1 : ℝ) ∧
    Box.overlap (α := Exact real .double) unitBox invertedBox = (0 : ℝ) := by
  have h := measures_overlaps real .double #v[unitBox] #v[unitBox, invertedBox]
  have harea : unitBox.HasArea := ⟨zero_lt_one, zero_lt_one⟩
  have hflat : ¬ invertedBox.HasArea := fun h => absurd h.1 (by norm_num [invertedBox])
  refine ⟨h, (h.eq_one_iff 0 0).mpr ⟨rfl, harea⟩, ?_⟩
  have hnot : ¬ 0 < Box.overlaps (α := Exact real .double) #v[unitBox] #v[unitBox, invertedBox] 0 1 :=
    fun hpos => hflat ((h.pos_iff 0 1).mp hpos).2.1
  exact le_antisymm (not_lt.mp hnot) (h.mem_Icc 0 1).1

end Inverted

end Exact

end AnchorLoss
