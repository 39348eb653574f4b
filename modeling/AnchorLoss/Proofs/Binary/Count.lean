import Mathlib
import AnchorLoss.Proofs.Binary.Overflow

namespace AnchorLoss

namespace Binary

open Float.Model (Format UnpackedFloat totalExponent)
open Float.Model.UnpackedFloat

section Exact

variable {spec : Format} {m n q : Nat} {e t : Int}

theorem scaled_shiftLeft (n k : Nat) (e : Int) : scaled (n <<< k) e = scaled n (e + k) := by
  rw [scaled, scaled, Nat.shiftLeft_eq, zpow_add₀ two_ne_zero, zpow_natCast]
  push_cast
  ring

theorem shiftLeft_pos (hn : 0 < n) (k : Nat) : 0 < n <<< k := by
  rw [Nat.shiftLeft_eq]
  exact Nat.mul_pos hn (Nat.two_pow_pos k)

theorem grid_of_canonical (h : Canonical spec m e) : grid spec m e = e := by
  have hlog : m.log2 < spec.mantissaBits := (Nat.log2_lt h.pos.ne').mpr h.lt
  have hmin := h.exponent
  simp only [grid, Format.targetExponent, totalExponent]
  obtain hn | hn := h.normal
  · omega
  · have hle : spec.mantissaBitsWithoutImplicit ≤ m.log2 := (Nat.le_log2 h.pos.ne').mpr hn
    simp only [Format.mantissaBits] at hlog ⊢
    omega

theorem roundWithAccuracy_mul_one (h : Canonical spec q t) (s : Sign) (hq : 0 < q) :
    roundWithAccuracy spec s (q * 2 ^ spec.mantissaBitsWithoutImplicit)
      (t + -(spec.mantissaBitsWithoutImplicit : Int)) .exact = .finite s q t hq := by
  have hpos : 0 < q * 2 ^ spec.mantissaBitsWithoutImplicit := Nat.mul_pos hq (Nat.two_pow_pos _)
  have hone : scaled (q * 2 ^ spec.mantissaBitsWithoutImplicit)
      (t + -(spec.mantissaBitsWithoutImplicit : Int)) = scaled q t := by
    rw [← Nat.shiftLeft_eq, scaled_shiftLeft, neg_add_cancel_right]
  have hgrid : grid spec (q * 2 ^ spec.mantissaBitsWithoutImplicit)
      (t + -(spec.mantissaBitsWithoutImplicit : Int)) = t := by
    rw [grid_congr hpos hq hone, grid_of_canonical h]
  have he : t + -(spec.mantissaBitsWithoutImplicit : Int) ≤
      grid spec (q * 2 ^ spec.mantissaBitsWithoutImplicit)
        (t + -(spec.mantissaBitsWithoutImplicit : Int)) := by
    rw [hgrid]
    omega
  obtain ⟨hq', hr, -⟩ := roundWithAccuracy_exact s hpos he (by rw [hgrid]; exact hone)
  rw [hr]
  simp only [hgrid]

theorem ofNat_exact (hn : 0 < n) (ht : grid spec n 0 ≤ 0) : ∃ q hq,
    UnpackedFloat.ofNat spec n = .finite .positive q (grid spec n 0) hq ∧
      Canonical spec q (grid spec n 0) ∧ scaled q (grid spec n 0) = scaled n 0 := by
  obtain ⟨k, hk⟩ := Int.le.dest ht
  have hshift : (0 - grid spec n 0).toNat = k := by omega
  have hexp : 0 - (k : Int) = grid spec n 0 := by omega
  have hpos := shiftLeft_pos hn k
  have hs : scaled (n <<< k) (grid spec n 0) = scaled n 0 := by
    rw [scaled_shiftLeft, hk]
  have hgrid : grid spec (n <<< k) (grid spec n 0) = grid spec n 0 := grid_congr hpos hn hs
  obtain ⟨hq, hr, hcan⟩ := roundWithAccuracy_exact (q := n <<< k) .positive hpos hgrid.ge (by rw [hgrid])
  have hc : compare (n : Int) 0 = .gt := by
    rw [compare_gt_iff_gt]
    omega
  refine ⟨n <<< k, hpos, ?_, hgrid ▸ hcan, hs⟩
  simp only [UnpackedFloat.ofNat, ofInt, UnpackedFloat.normalize, hc, Int.toNat_natCast,
    UnpackedFloat.round, decreaseExponent]
  change roundWithAccuracy spec .positive (n <<< (0 - grid spec n 0).toNat)
    (0 - ((0 - grid spec n 0).toNat : Int)) .exact = _
  rw [hshift, hexp, hr]
  simp only [hgrid]

theorem ofScientific_eq (hn : 0 < n) : ofScientific spec n 0 =
    roundWithAccuracy spec .positive (n <<< spec.mantissaBits) (-spec.mantissaBits) .exact := by
  have hp : (0 : Int) ≤ 2 ^ spec.exponentBits := by positivity
  simp only [ofScientific]
  rw [dif_neg hn.ne', if_neg (by omega), if_neg (by omega), if_pos le_rfl]
  simp only [mul, Int.toNat_zero, pow_zero, mul_one, add_zero]
  rfl

end Exact

theorem not_overflows_of_nonpos {t : Int} (ht : t ≤ 0) : ¬ Overflows .binary64 t := by
  intro ho
  have hbig : Overflows .binary64 0 := ho.mono ht
  revert hbig
  unfold Overflows
  decide

theorem le_grid_shiftLeft {n : Nat} (hn : 0 < n) : (-53 : Int) ≤ grid .binary64 (n <<< 53) (-53) := by
  have hle : 2 ^ 53 ≤ n <<< 53 := by
    rw [Nat.shiftLeft_eq]
    exact Nat.le_mul_of_pos_left _ hn
  have hlog : 53 ≤ (n <<< 53).log2 := (Nat.le_log2 (shiftLeft_pos hn 53).ne').mpr hle
  simp only [grid, Format.targetExponent, totalExponent, Format.mantissaBits]
  omega

theorem ofDouble_toFloat {n : Nat} (hn : 0 < n) (hlt : n < 2 ^ 53) : ∃ q hq,
    ofDouble n.toUInt64.toFloat = .finite .positive q (grid .binary64 n 0) hq ∧
      Canonical .binary64 q (grid .binary64 n 0) ∧ scaled q (grid .binary64 n 0) = scaled n 0 := by
  have hlog : n.log2 < 53 := (Nat.log2_lt hn.ne').mpr hlt
  have ht : grid .binary64 n 0 ≤ 0 := by
    simp only [grid, Format.targetExponent, totalExponent, Format.mantissaBits, Format.minExponent]
    omega
  have hu : n.toUInt64.toNat = n := by
    rw [Nat.toUInt64_eq, UInt64.toNat_ofNat']
    omega
  obtain ⟨q, hq, hofNat, hcan, hscaled⟩ := ofNat_exact hn ht
  refine ⟨q, hq, ?_, hcan, hscaled⟩
  change unpack .binary64 (pack .binary64 (UnpackedFloat.ofNat .binary64 n.toUInt64.toNat)) = _
  rw [hu, hofNat, unpack_pack hcan (not_overflows_of_nonpos ht)]

/-- Small or not, a count is its exact value rounded once. -/
theorem value_ofNat {n : Nat} (hn : 0 < n) : value (Scalar.ofNat n : Binary .double) =
    unpack .binary64 (pack .binary64
      (roundWithAccuracy .binary64 .positive (n <<< 53) (-53) .exact)) := by
  change ofDouble (Float.ofScientific n false 0) = _
  unfold Float.ofScientific
  by_cases hs : n < 2 ^ 53 ∧ 0 ≤ 22
  · -- a small count is exact in a word, and is multiplied by the power of ten with exponent zero
    rw [dif_pos hs]
    obtain ⟨q, hq, hword, hcan, hscaled⟩ := ofDouble_toFloat hn hs.1
    obtain ⟨hone, h1⟩ := ofDouble_one
    have hexact : scaled (n <<< 53) (-53) = scaled n 0 := by
      rw [scaled_shiftLeft]
      rfl
    have hgrid : grid .binary64 (n <<< 53) (-53) = grid .binary64 n 0 :=
      grid_congr (shiftLeft_pos hn 53) hn hexact
    obtain ⟨hq', hr, -⟩ := roundWithAccuracy_exact (q := q) .positive (shiftLeft_pos hn 53)
      (le_grid_shiftLeft hn) (by rw [hgrid, hscaled, hexact])
    have hmul := roundWithAccuracy_mul_one hcan (.positive * .positive) hq
    change unpack .binary64 (pack .binary64 (mul .binary64 (ofDouble n.toUInt64.toFloat)
      (ofDouble (Float.ofBits 0x3FF0000000000000)))) = _
    rw [hword, h1, hr]
    simp only [hgrid]
    exact congrArg (fun u => unpack .binary64 (pack .binary64 u)) hmul
  · rw [dif_neg hs]
    change unpack .binary64 (pack .binary64 (ofScientific .binary64 n 0)) = _
    rw [ofScientific_eq hn]
    rfl

theorem nonneg_ofNat (n : Nat) : Nonneg (value (Scalar.ofNat n : Binary .double)) := by
  obtain rfl | hn := Nat.eq_zero_or_pos n
  · have hz : value (Scalar.ofNat 0 : Binary .double) = .zero .positive := value_zero .double
    rw [hz]
    exact .zero .positive
  · rw [value_ofNat hn]
    exact nonneg_pack (nonneg_roundWithAccuracy _ _ _)

theorem nonneg_mul_ofNat {ratio : Binary .double} (h : Scalar.lt ratio Scalar.zero = false) (n : Nat) :
    value (ratio * (Scalar.ofNat n : Binary .double)) = .notANumber ∨
      Nonneg (value (ratio * (Scalar.ofNat n : Binary .double))) := by
  rw [value_mul]
  obtain hr | hr := nonneg_of_not_lt h
  · rw [hr]
    exact .inl (value_pack_notANumber .double)
  · refine (nonneg_mul hr (nonneg_ofNat n)).imp (fun hn => ?_) nonneg_pack
    rw [hn]
    exact value_pack_notANumber .double

theorem limit_nonneg {ratio : Binary .double} (h : Scalar.lt ratio Scalar.zero = false) {n : Nat}
    {limit : Int} (hl : floor (value (ratio * (Scalar.ofNat n : Binary .double))) = .ok limit) :
    0 ≤ limit := by
  obtain hn | hn := nonneg_mul_ofNat h n
  · rw [hn] at hl
    cases hl
  · exact nonneg_floor hn hl

theorem magnitude_nonneg (u : UnpackedFloat) : 0 ≤ magnitude u := by
  cases u with
  | finite s m e hm => exact (scaled_pos hm e).le
  | _ => exact le_refl 0

theorem ofNat_mono {m n : Nat} (h : m ≤ n) (hfin : IsFinite (Scalar.ofNat n : Binary .double)) :
    IsFinite (Scalar.ofNat m : Binary .double) ∧
      magnitude (value (Scalar.ofNat m : Binary .double)) ≤
        magnitude (value (Scalar.ofNat n : Binary .double)) := by
  obtain rfl | hm := Nat.eq_zero_or_pos m
  · have hz : value (Scalar.ofNat 0 : Binary .double) = .zero .positive := value_zero .double
    rw [IsFinite, hz]
    exact ⟨rfl, magnitude_nonneg _⟩
  · have hn : 0 < n := lt_of_lt_of_le hm h
    have hle : scaled (m <<< 53) (-53) ≤ scaled (n <<< 53) (-53) := by
      rw [scaled_shiftLeft, scaled_shiftLeft]
      exact mul_le_mul_of_nonneg_right (Nat.cast_le.mpr h) (zpow_pos two_pos _).le
    rw [IsFinite, value_ofNat hn] at hfin
    rw [IsFinite, value_ofNat hm, value_ofNat hn]
    exact round_mono (shiftLeft_pos hm 53) (shiftLeft_pos hn 53) (le_grid_shiftLeft hm)
      (le_grid_shiftLeft hn) hle hfin

theorem canonical_value {x : Binary .double} {s : Sign} {m : Nat} {e : Int} {hm : 0 < m}
    (h : value x = .finite s m e hm) : Canonical .binary64 m e :=
  canonical_unpack h

/-- The exponent of a product is below its grid, as one factor fills its bits or both have the smallest
exponent. -/
theorem add_le_grid_mul {m n : Nat} {e f : Int} (hm : Canonical .binary64 m e)
    (hn : Canonical .binary64 n f) : e + f ≤ grid .binary64 (m * n) (e + f) := by
  have hpos : m * n ≠ 0 := (Nat.mul_pos hm.pos hn.pos).ne'
  have hlog : 2 ^ 52 ≤ m * n → 52 ≤ (m * n).log2 := (Nat.le_log2 hpos).mpr
  simp only [grid, Format.targetExponent, totalExponent, Format.mantissaBits, Format.minExponent]
  obtain he | hfull := hm.normal
  · obtain hf | hfull := hn.normal
    · rw [he, hf]
      simp only [Format.minExponent, Format.mantissaBits]
      omega
    · have := hlog (le_trans hfull (Nat.le_mul_of_pos_left n hm.pos))
      omega
  · have := hlog (le_trans hfull (Nat.le_mul_of_pos_right m hn.pos))
    omega

theorem isFinite_of_pack {p : Precision} {u : UnpackedFloat}
    (h : (unpack (format p) (pack (format p) u)).isFinite = true) : u.isFinite = true := by
  cases u with
  | notANumber =>
    rw [value_pack_notANumber] at h
    exact h
  | infinity s =>
    rw [value_pack_infinity] at h
    exact h
  | zero s => rfl
  | finite s m e hm => rfl

theorem isFinite_of_mul {spec : Format} {u v : UnpackedFloat} (h : (mul spec u v).isFinite = true) :
    u.isFinite = true ∧ v.isFinite = true := by
  cases u with
  | notANumber => exact absurd h Bool.false_ne_true
  | infinity s => cases v <;> exact absurd h Bool.false_ne_true
  | zero s | finite s m e hm =>
    cases v with
    | notANumber | infinity s' => exact absurd h Bool.false_ne_true
    | zero s' | finite s' m' e' hm' => exact ⟨rfl, rfl⟩

theorem cases_of_isFinite {u : UnpackedFloat} (h : u.isFinite = true) :
    (∃ s, u = .zero s) ∨ ∃ s m e hm, u = .finite s m e hm := by
  cases u with
  | notANumber => cases h
  | infinity s => cases h
  | zero s => exact .inl ⟨s, rfl⟩
  | finite s m e hm => exact .inr ⟨s, m, e, hm, rfl⟩

theorem isFinite_mul_of_le {r : Binary .double} {m n : Nat} (h : m ≤ n)
    (hfin : IsFinite (r * (Scalar.ofNat n : Binary .double))) :
    IsFinite (r * (Scalar.ofNat m : Binary .double)) := by
  rw [IsFinite, value_mul] at hfin ⊢
  obtain ⟨hr, hn⟩ := isFinite_of_mul (isFinite_of_pack hfin)
  obtain ⟨hm, hle⟩ := ofNat_mono h hn
  have hzero : ∀ s, (unpack (format .double) (pack (format .double) (.zero s))).isFinite = true := by
    intro s
    rw [value_pack_zero]
    rfl
  obtain ⟨s, hu⟩ | ⟨s, k, e, hk, hu⟩ := cases_of_isFinite hr
  · obtain ⟨s', hv⟩ | ⟨s', i, f, hi, hv⟩ := cases_of_isFinite hm
    · rw [hu, hv]
      exact hzero _
    · rw [hu, hv]
      exact hzero _
  · obtain ⟨s', hv⟩ | ⟨s', i, f, hi, hv⟩ := cases_of_isFinite hm
    · rw [hu, hv]
      exact hzero _
    · obtain ⟨s'', hw⟩ | ⟨s'', j, g, hj, hw⟩ := cases_of_isFinite hn
      · rw [hv, hw] at hle
        exact absurd hle (scaled_pos hi f).not_ge
      · rw [hv, hw] at hle
        rw [hu, hw] at hfin
        rw [hu, hv]
        have hscaled : scaled (k * i) (e + f) ≤ scaled (k * j) (e + g) := by
          rw [scaled_mul, scaled_mul]
          exact mul_le_mul_of_nonneg_left hle (scaled_pos hk e).le
        exact (round_mono (Nat.mul_pos hk hi) (Nat.mul_pos hk hj)
          (add_le_grid_mul (canonical_value hu) (canonical_value hv))
          (add_le_grid_mul (canonical_value hu) (canonical_value hw)) hscaled hfin).1

theorem floor_of_isFinite {u : UnpackedFloat} (h : u.isFinite = true) : ∃ k, floor u = .ok k := by
  obtain ⟨s, rfl⟩ | ⟨s, m, e, hm, rfl⟩ := cases_of_isFinite h
  · exact ⟨0, rfl⟩
  · exact ⟨_, rfl⟩

theorem floorScaled_positive (m : Nat) (e : Int) : floorScaled .positive m e = ⌊scaled m e⌋ := by
  unfold floorScaled scaled
  split
  · rename_i he
    obtain ⟨k, rfl⟩ := Int.eq_ofNat_of_zero_le he
    have hcast : (m : ℚ) * 2 ^ (k : Int) = ((m * 2 ^ k : Nat) : Int) := by
      rw [zpow_natCast]
      push_cast
      rfl
    rw [hcast, Int.floor_intCast]
    rfl
  · rename_i he
    obtain ⟨k, hk⟩ := Int.eq_ofNat_of_zero_le (neg_nonneg.mpr (not_le.mp he).le)
    have hcast : (m : ℚ) * 2 ^ e = (m : ℚ) / (2 ^ k : Nat) := by
      rw [← neg_neg e, hk, zpow_neg, zpow_natCast, div_eq_mul_inv]
      push_cast
      rfl
    rw [hcast, Rat.floor_natCast_div_natCast, hk]
    exact Int.fdiv_eq_ediv_of_nonneg _ (Int.natCast_nonneg _)

theorem floor_eq_of_nonneg {u : UnpackedFloat} (h : Nonneg u) (hfin : u.isFinite = true) :
    floor u = .ok ⌊magnitude u⌋ := by
  cases h with
  | zero s => exact congrArg Except.ok Int.floor_zero.symm
  | finite m e hm => exact congrArg Except.ok (floorScaled_positive m e)
  | infinity => cases hfin

/-- A ratio that is not negative allows the floor of its rounded product with the count. -/
theorem limit_eq_floor {ratio : Binary .double} (h : Scalar.lt ratio Scalar.zero = false) {n : Nat}
    (hfin : IsFinite (ratio * (Scalar.ofNat n : Binary .double))) :
    floor (value (ratio * (Scalar.ofNat n : Binary .double))) =
      .ok ⌊magnitude (value (ratio * (Scalar.ofNat n : Binary .double)))⌋ := by
  obtain hn | hn := nonneg_mul_ofNat h n
  · rw [IsFinite, hn] at hfin
    cases hfin
  · exact floor_eq_of_nonneg hn hfin

end Binary

end AnchorLoss
