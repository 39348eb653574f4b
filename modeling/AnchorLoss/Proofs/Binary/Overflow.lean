import Mathlib
import AnchorLoss.Proofs.Binary.Nearest
import AnchorLoss.Proofs.Binary.Sign

namespace AnchorLoss

namespace Binary

open Float.Model (Format UnpackedFloat totalExponent)
open Float.Model.UnpackedFloat

section Pack

variable {spec : Format} {m : Nat} {e : Int}

/-- A mantissa that fills its bits, or has the smallest exponent. -/
structure Canonical (spec : Format) (m : Nat) (e : Int) : Prop where
  pos : 0 < m
  lt : m < 2 ^ spec.mantissaBits
  exponent : spec.minExponent ≤ e
  normal : e = spec.minExponent ∨ 2 ^ spec.mantissaBitsWithoutImplicit ≤ m

def Overflows (spec : Format) (e : Int) : Prop :=
  2 ^ spec.exponentBits ≤ (e + spec.exponentBias + spec.mantissaBitsWithoutImplicit).toNat + 1

theorem Overflows.mono {e f : Int} (h : Overflows spec e) (hef : e ≤ f) : Overflows spec f := by
  unfold Overflows at h ⊢
  omega

theorem toNat_append_one {w : Nat} (v : BitVec w) : (1#1 ++ v).toNat = 2 ^ w + v.toNat := by
  rw [BitVec.toNat_append, ← Nat.shiftLeft_add_eq_or_of_lt v.isLt, Nat.shiftLeft_eq]
  simp

theorem mantissaBits_pow (spec : Format) :
    2 ^ spec.mantissaBits = 2 * 2 ^ spec.mantissaBitsWithoutImplicit := by
  rw [Format.mantissaBits, pow_add, pow_one]

theorem canonical_unpack {b : BitVec spec.numBits} {s : Sign} {hm : 0 < m}
    (h : unpack spec b = .finite s m e hm) : Canonical spec m e := by
  have hmin := minExponent_eq spec
  have hpow := mantissaBits_pow spec
  have hlt := (unpackMantissa b).isLt
  simp only [unpack] at h
  split at h
  · split at h <;> cases h
  · split at h
    · rename_i hz
      split at h
      · cases h
      · injection h with _ hm' he'
        subst hm' he'
        have h0 : (unpackExponent b).toNat = 0 := by rw [hz]; exact BitVec.toNat_zero
        exact ⟨hm, by omega, by omega, .inl (by omega)⟩
    · rename_i hz
      injection h with _ hm' he'
      subst hm' he'
      have h0 := BitVec.toNat_pos_of_ne_zero hz
      rw [toNat_append_one] at hm ⊢
      exact ⟨hm, by omega, by omega, .inr (Nat.le_add_right _ _)⟩

/-- What is canonical and does not overflow is packed without loss. -/
theorem unpack_pack {s : Sign} {hm : 0 < m} (h : Canonical spec m e) (ho : ¬ Overflows spec e) :
    unpack spec (pack spec (.finite s m e hm)) = .finite s m e hm := by
  have hmin := minExponent_eq spec
  have hpow := mantissaBits_pow spec
  have hexp := h.exponent
  have hlt := h.lt
  unfold Overflows at ho
  simp only [pack]
  split
  · rename_i hover
    exact absurd hover ho
  · split
    · -- a normal number, whose first bit is not stored
      rename_i hover hlog
      have hm' : 2 ^ spec.mantissaBitsWithoutImplicit ≤ m := by
        have hself := Nat.log2_self_le hm.ne'
        have hbits : m.log2 = spec.mantissaBitsWithoutImplicit := by
          unfold Format.mantissaBits at hlog
          omega
        rwa [hbits] at hself
      have hmant : m % 2 ^ spec.mantissaBitsWithoutImplicit =
          m - 2 ^ spec.mantissaBitsWithoutImplicit := by
        rw [Nat.mod_eq_sub_mod hm', Nat.mod_eq_of_lt (by omega)]
      simp only [unpack, unpackExponent_packComponents, unpackMantissa_packComponents,
        unpackSign_packComponents, if_neg (ofNat_ne_neg_one ho)]
      rw [if_neg (ofNat_ne_zero (by omega) (by omega))]
      simp only [UnpackedFloat.finite.injEq, toNat_append_one, BitVec.toNat_ofNat,
        Sign.ofBitVec_toBitVec, true_and]
      rw [hmant, Nat.mod_eq_of_lt (by omega)]
      omega
    · -- a subnormal number
      rename_i hover hlog
      have hm' : m < 2 ^ spec.mantissaBitsWithoutImplicit := by
        by_contra hge
        apply hlog
        have hbits : m.log2 = spec.mantissaBitsWithoutImplicit :=
          (Nat.log2_eq_iff hm.ne').mpr ⟨by omega, by rw [pow_succ]; omega⟩
        rw [hbits, Format.mantissaBits, add_comm]
      have hmant : (BitVec.ofNat spec.mantissaBitsWithoutImplicit m) ≠ 0#_ := ofNat_ne_zero hm hm'
      have he : e = spec.minExponent := by
        obtain he | hn := h.normal
        · exact he
        · omega
      simp only [unpack, unpackExponent_packComponents, unpackMantissa_packComponents,
        unpackSign_packComponents, if_neg (zero_ne_neg_one spec), if_true, dif_neg hmant]
      simp only [UnpackedFloat.finite.injEq, BitVec.toNat_ofNat, Sign.ofBitVec_toBitVec, true_and]
      rw [Nat.mod_eq_of_lt hm', Nat.zero_mod]
      omega

theorem isFinite_of_overflows {s : Sign} {hm : 0 < m} (h : Overflows spec e) :
    (unpack spec (pack spec (.finite s m e hm))).isFinite = false := by
  unfold Overflows at h
  simp only [pack, if_pos h]
  simp [unpack, packedInfinity, UnpackedFloat.isFinite]

end Pack

def magnitude : UnpackedFloat → ℚ
  | .finite _ m e _ => scaled m e
  | _ => 0

section Round

variable {spec : Format} {m n q r : Nat} {e f t u : Int} {s s' : Sign}

/-- A rounded mantissa, before it is halved if it does not fit. -/
structure Rounded (spec : Format) (q : Nat) (t : Int) : Prop where
  le : q ≤ 2 ^ spec.mantissaBits
  exponent : spec.minExponent ≤ t
  normal : t = spec.minExponent ∨ 2 ^ spec.mantissaBitsWithoutImplicit ≤ q

def top (spec : Format) (q : Nat) (t : Int) : Int := if q = 2 ^ spec.mantissaBits then t + 1 else t

theorem carried_eq (h : Rounded spec q t) (h0 : q ≠ 0) : ∃ m hm,
    carried spec s q t = .finite s m (top spec q t) hm ∧ Canonical spec m (top spec q t) ∧
      scaled m (top spec q t) = scaled q t := by
  have hpow := mantissaBits_pow spec
  have hpos := Nat.two_pow_pos spec.mantissaBitsWithoutImplicit
  have hexp := h.exponent
  by_cases hq : q = 2 ^ spec.mantissaBits
  · refine ⟨2 ^ spec.mantissaBitsWithoutImplicit, hpos, ?_, ?_, ?_⟩
    · rw [carried, dif_neg h0, if_pos hq, top, if_pos hq]
    · rw [top, if_pos hq]
      exact ⟨hpos, by omega, by omega, .inr (le_refl _)⟩
    · rw [top, if_pos hq, scaled, scaled, hq, hpow, zpow_add₀ two_ne_zero, zpow_one]
      push_cast
      ring
  · have hlt : q < 2 ^ spec.mantissaBits := lt_of_le_of_ne h.le hq
    refine ⟨q, Nat.pos_of_ne_zero h0, ?_, ?_, ?_⟩
    · rw [carried, dif_neg h0, if_neg hq, top, if_neg hq]
    · rw [top, if_neg hq]
      exact ⟨Nat.pos_of_ne_zero h0, hlt, hexp, h.normal⟩
    · rw [top, if_neg hq]

theorem isFinite_carried (h : Rounded spec q t) (h0 : q ≠ 0) :
    (unpack spec (pack spec (carried spec s q t))).isFinite = true ↔
      ¬ Overflows spec (top spec q t) := by
  obtain ⟨m, hm, hc, hcan, -⟩ := carried_eq h h0
  rw [hc]
  constructor
  · intro hfin ho
    rw [isFinite_of_overflows ho] at hfin
    cases hfin
  · intro ho
    rw [unpack_pack hcan ho]
    rfl

theorem magnitude_carried (h : Rounded spec q t)
    (hfin : (unpack spec (pack spec (carried spec s q t))).isFinite = true) :
    magnitude (unpack spec (pack spec (carried spec s q t))) = scaled q t := by
  by_cases h0 : q = 0
  · have hz : unpack spec (pack spec (.zero s)) = .zero s := unpack_packedZero
    rw [carried, dif_pos h0, hz, h0, scaled, Nat.cast_zero, zero_mul]
    rfl
  · have ho := (isFinite_carried h h0).mp hfin
    obtain ⟨m, hm, hc, hcan, hs⟩ := carried_eq h h0
    rw [hc, unpack_pack hcan ho]
    exact hs

theorem top_mono (h : Rounded spec r u) (htu : t ≤ u) (hqr : t = u → q ≤ r) :
    (q ≤ 2 ^ spec.mantissaBits) → top spec q t ≤ top spec r u := by
  intro hq
  have hr := h.le
  unfold top
  split <;> split <;> omega

theorem scaled_mono (hq : Rounded spec q t) (hr : Rounded spec r u) (htu : t ≤ u)
    (hqr : t = u → q ≤ r) : scaled q t ≤ scaled r u := by
  obtain rfl | hlt := eq_or_lt_of_le htu
  · have hle : (q : ℚ) ≤ r := by exact_mod_cast hqr rfl
    exact mul_le_mul_of_nonneg_right hle (zpow_pos two_pos t).le
  · have hne : u ≠ spec.minExponent := by
      have := hq.exponent
      omega
    have hr' : (2 : ℚ) ^ (spec.mantissaBitsWithoutImplicit : Int) ≤ r := by
      rw [zpow_natCast]
      exact_mod_cast hr.normal.resolve_left hne
    have hq' : (q : ℚ) ≤ 2 ^ (spec.mantissaBits : Int) := by
      rw [zpow_natCast]
      exact_mod_cast hq.le
    have hexp : (spec.mantissaBits : Int) + t ≤ spec.mantissaBitsWithoutImplicit + u := by
      simp only [Format.mantissaBits]
      omega
    calc scaled q t ≤ 2 ^ (spec.mantissaBits : Int) * 2 ^ t :=
          mul_le_mul_of_nonneg_right hq' (zpow_pos two_pos t).le
      _ = 2 ^ ((spec.mantissaBits : Int) + t) := (zpow_add₀ two_ne_zero _ _).symm
      _ ≤ 2 ^ ((spec.mantissaBitsWithoutImplicit : Int) + u) := zpow_le_zpow_right₀ one_le_two hexp
      _ = 2 ^ (spec.mantissaBitsWithoutImplicit : Int) * 2 ^ u := zpow_add₀ two_ne_zero _ _
      _ ≤ scaled r u := mul_le_mul_of_nonneg_right hr' (zpow_pos two_pos u).le

/-- A number that is not greater does not overflow either, and is not greater once it is rounded. -/
theorem round_mono (hm : 0 < m) (hn : 0 < n) (he : e ≤ grid spec m e) (hf : f ≤ grid spec n f)
    (h : scaled m e ≤ scaled n f)
    (hfin : (unpack spec (pack spec (roundWithAccuracy spec s' n f .exact))).isFinite = true) :
    (unpack spec (pack spec (roundWithAccuracy spec s m e .exact))).isFinite = true ∧
      magnitude (unpack spec (pack spec (roundWithAccuracy spec s m e .exact))) ≤
        magnitude (unpack spec (pack spec (roundWithAccuracy spec s' n f .exact))) := by
  obtain ⟨q, hq, hqle, hqn, hqr⟩ := roundWithAccuracy_eq spec s hm he
  obtain ⟨r, hr, hrle, hrn, hrr⟩ := roundWithAccuracy_eq spec s' hn hf
  have hQ : Rounded spec q (grid spec m e) := ⟨hqle, minExponent_le_grid spec m e, hqn⟩
  have hR : Rounded spec r (grid spec n f) := ⟨hrle, minExponent_le_grid spec n f, hrn⟩
  have htu := grid_mono spec hm h
  have hle : grid spec m e = grid spec n f → q ≤ r := by
    intro heq
    apply hq.mono hr
    rw [heq]
    exact div_le_div_of_nonneg_right h (zpow_pos two_pos _).le
  rw [hrr] at hfin ⊢
  rw [hqr]
  have hqfin : (unpack spec (pack spec (carried spec s q (grid spec m e)))).isFinite = true := by
    by_cases hq0 : q = 0
    · have hz : unpack spec (pack spec (.zero s)) = .zero s := unpack_packedZero
      rw [carried, dif_pos hq0, hz]
      rfl
    · have hr0 : r ≠ 0 := by
        -- a zero has the smallest exponent, where nothing but a zero is below it
        rintro rfl
        have hpos := Nat.two_pow_pos spec.mantissaBitsWithoutImplicit
        have hmin := hQ.exponent
        have := hrn
        have := hle
        omega
      rw [isFinite_carried hR hr0] at hfin
      rw [isFinite_carried hQ hq0]
      exact fun ho => hfin (ho.mono (top_mono hR htu hle hqle))
  refine ⟨hqfin, ?_⟩
  rw [magnitude_carried hQ hqfin, magnitude_carried hR hfin]
  exact scaled_mono hQ hR htu hle

theorem grid_congr (hm : 0 < m) (hn : 0 < n) (h : scaled m e = scaled n f) :
    grid spec m e = grid spec n f :=
  le_antisymm (grid_mono spec hm h.le) (grid_mono spec hn h.ge)

theorem roundWithAccuracy_exact (s : Sign) (hm : 0 < m) (he : e ≤ grid spec m e)
    (h : scaled m e = scaled q (grid spec m e)) : ∃ hq,
      roundWithAccuracy spec s m e .exact = .finite s q (grid spec m e) hq ∧
        Canonical spec q (grid spec m e) := by
  have hpos := zpow_pos (two_pos : (0 : ℚ) < 2) (grid spec m e)
  have hq : 0 < q := by
    have hs := scaled_pos hm e
    rw [h, scaled] at hs
    exact_mod_cast (pos_iff_pos_of_mul_pos hs).mpr hpos
  have hlt : q < 2 ^ spec.mantissaBits := by
    have hs := scaled_lt spec m e
    rw [h, scaled, add_comm, zpow_add₀ two_ne_zero, zpow_natCast] at hs
    exact_mod_cast lt_of_mul_lt_mul_right hs hpos.le
  obtain ⟨r, hr, hrle, hrn, hrr⟩ := roundWithAccuracy_eq spec s hm he
  rw [h, scaled, mul_div_cancel_right₀ _ hpos.ne'] at hr
  obtain rfl : r = q := le_antisymm (hr.mono (Nearest.of_nat q) le_rfl) ((Nearest.of_nat q).mono hr le_rfl)
  refine ⟨hq, ?_, hq, hlt, minExponent_le_grid spec m e, hrn⟩
  rw [hrr, carried, dif_neg hq.ne', if_neg hlt.ne]

end Round

end Binary

end AnchorLoss
